import Attestor.Proofs.CodecReading
import Attestor.Store.Database

namespace Attestor

namespace Attestation

/-- What a row keeps of an attestation. -/
def kept (a : Attestation) : Attestation :=
  match a.key with
  | .claim _ => { a with rewardAmount := none }
  | .createAccount _ => a

@[simp] theorem kept_bridge (a : Attestation) : a.kept.bridge = a.bridge := by
  unfold kept
  split
  · rfl
  · rfl

/-- Account creations have the reward that their rows require. -/
def Storable (a : Attestation) : Prop :=
  a.key.kind = .createAccount → a.rewardAmount ≠ none

end Attestation

namespace Row

theorem decodeText_compact {j : Json} (hj : Json.ReadsBack Json.depthLimit j) {decode : Decoder α}
    {a : α} (hd : decode j = .ok a) : decodeText? decode j.compact = some a := by
  simp only [decodeText?, Json.document_compact hj, hd]
  rfl

theorem decodeText_amount (a : Amount) : decodeText? Amount.ofJson (amountText a) = some a :=
  decodeText_compact (Amount.readsBack 126 a) a.ofJson_toJson

theorem amountText_inj {a a' : Amount} : amountText a = amountText a' ↔ a = a' := by
  constructor
  · intro h
    have hd := congrArg (decodeText? Amount.ofJson) h
    rw [decodeText_amount, decodeText_amount] at hd
    exact Option.some.inj hd
  · rintro rfl
    rfl

theorem decodeText_bridge (b : Bridge) :
    decodeText? (Bridge.ofJson .plain) b.canonicalText = some b :=
  decodeText_compact (Bridge.readsBack 125 b) (b.ofJson_toJson .plain)

theorem account_text (a : AccountId) : account? a.text = some a := by
  rw [account?, AccountId.ofString_text]
  rfl

theorem toInt_ledger (n : UInt32) : n.toUInt64.toInt64.toInt = n.toNat := by
  have hn := n.toNat_lt
  have h : n.toUInt64.toInt64 = Int64.ofNat n.toNat := by
    rw [← UInt64.toInt64_ofNat', ← UInt32.toNat_toUInt64, UInt64.ofNat_toNat]
  rw [h, Int64.toInt_ofNat_of_lt (by omega)]

theorem fits_ledger (n : UInt32) : FitsUnsigned 32 n.toUInt64.toInt64.toInt := by
  rw [toInt_ledger]
  exact ⟨by omega, by exact_mod_cast n.toNat_lt⟩

theorem ledger_column (n : UInt32) : ledger? n.toUInt64.toInt64 = some n := by
  rw [ledger?, if_pos (fits_ledger n), toInt_ledger]
  simp

theorem eq_of_ledger {x : Int64} {n : UInt32} (h : ledger? x = some n) :
    x = n.toUInt64.toInt64 := by
  unfold ledger? at h
  split at h
  · rename_i hf
    cases h
    obtain ⟨hl, hu⟩ := hf
    have hn : x.toInt.toNat < 4294967296 := (Int.toNat_lt hl).mpr hu
    apply Int64.toInt_inj.mp
    rw [toInt_ledger, UInt32.toNat_ofNat_of_lt' hn, Int.toNat_of_nonneg hl]
  · cases h

theorem exists_ledger {x : Int64} (h : FitsUnsigned 32 x.toInt) :
    ∃ n : UInt32, x = n.toUInt64.toInt64 :=
  ⟨_, eq_of_ledger (if_pos h)⟩

theorem ledger_inj {m n : UInt32} (h : m.toUInt64.toInt64 = n.toUInt64.toInt64) : m = n := by
  have hl := congrArg ledger? h
  rw [ledger_column, ledger_column] at hl
  exact Option.some.inj hl

theorem success_column (b : Bool) : ((if b then 1 else 0 : Int64) != 0) = b := by
  cases b <;> decide

/-- A row holds all that is kept of its attestation. -/
theorem attestation_ofAttestation {a : Attestation} (h : a.Storable) :
    (ofAttestation a).attestation? a.key.kind a.direction = some a.kept := by
  obtain ⟨direction, key, transactionId, ledger, success, amount, reward, bridge, sender, rewarded,
    destination, signer, publicKey, signature⟩ := a
  unfold attestation? ofAttestation
  simp only [ledger_column, decodeText_amount, decodeText_bridge, account_text, success_column]
  cases key with
  | claim n =>
    cases destination with
    | none => rfl
    | some d =>
      simp only [Option.map_some, account_text]
      rfl
  | createAccount n =>
    cases reward with
    | none => exact absurd rfl (h rfl)
    | some r =>
      have hr : decodeText? Amount.ofJson (amountText r) = some r := decodeText_amount r
      cases destination with
      | none =>
        simp only [ClaimKey.kind, Attestation.isAccountCreate, decide_true, ↓reduceIte,
          Option.map_some, Option.bind_eq_bind, Option.bind_some, hr]
        rfl
      | some d =>
        simp only [ClaimKey.kind, Attestation.isAccountCreate, decide_true, ↓reduceIte,
          Option.map_some, Option.bind_eq_bind, Option.bind_some, hr, account_text]
        rfl

/-- A stored row can be read. -/
theorem read_ofAttestation {a : Attestation} (h : a.Storable) :
    Database.read a.key.kind a.direction (ofAttestation a) = .ok a.kept := by
  rw [Database.read, attestation_ofAttestation h]

end Row

end Attestor
