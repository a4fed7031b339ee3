import Attestor.Proofs.MessageReading
import Attestor.Proofs.SignedAlike
import Attestor.Proofs.WriteOnce

namespace Attestor

/-- The bytes that are hashed tell a bridge apart from every other. -/
theorem Bridge.canonicalBytes_inj {b b' : Bridge} :
    Bytes.ofString b.canonicalText = Bytes.ofString b'.canonicalText ↔ b = b' := by
  constructor
  · intro h
    exact canonicalText_inj (Bytes.ofString_inj h)
  · rintro rfl
    rfl

/-- A row stands under the key of the bridge that it is read with. -/
theorem Database.Legible.partition {db : Database} (h : db.Legible) {kind : TransferKind}
    {direction : Direction} {r : Row} (hr : r ∈ db.rows kind direction) :
    ∃ a, Database.read kind direction r = .ok a ∧ r.bridgeKey = a.bridge.partitionKey := by
  obtain ⟨a, hs, rfl, rfl, rfl⟩ := h.stored kind direction r hr
  refine ⟨a.kept, Row.read_ofAttestation hs, ?_⟩
  rw [Attestation.kept_bridge, Row.ofAttestation]

namespace Holding

/-- Bridges never share a partition. What is hashed for two bridges is the same only if they are one
bridge, validated or not. And whatever was done with a database that begins empty, any two rows, of
one table or of two, have the same key exactly if they are of the same bridge, unless the hash
collides on the texts of their bridges. -/
theorem partitions_apart :
    (∀ b b' : Bridge,
      Bytes.ofString b.canonicalText = Bytes.ofString b'.canonicalText ↔ b = b') ∧
    ∀ (operations : List Operation) (kind kind' : TransferKind) (direction direction' : Direction),
      ∀ r ∈ (fresh.run operations).database.rows kind direction,
      ∀ r' ∈ (fresh.run operations).database.rows kind' direction',
        ∃ a a', Database.read kind direction r = .ok a ∧
          Database.read kind' direction' r' = .ok a' ∧
          (Bridge.Apart [a.bridge, a'.bridge] →
            (r.bridgeKey = r'.bridgeKey ↔ a.bridge = a'.bridge)) := by
  refine ⟨fun b b' => Bridge.canonicalBytes_inj, ?_⟩
  intro operations kind kind' direction direction' r hr r' hr'
  have legible := run_legible operations
  obtain ⟨a, hread, hkey⟩ := legible.partition hr
  obtain ⟨a', hread', hkey'⟩ := legible.partition hr'
  refine ⟨a, a', hread, hread', ?_⟩
  intro apart
  rw [hkey, hkey']
  exact apart.partitionKey_inj (by simp) (by simp)

end Holding

namespace Bridge

/-- The name of an account that goes on, after a quote, with what stands between the doors of a
bridge and with the name of another account. -/
def straddling (x y : String) : String :=
  x ++ "\",\"locking_chain_issue\":\"XRP\",\"issuing_chain_door\":\"" ++ y

/-- Three names, the first two in one door. -/
def straddledLocking : Bridge where
  lockingDoor := ⟨straddling "rA" "rB", by decide +kernel, by decide +kernel, by decide +kernel⟩
  lockingIssue := .native
  issuingDoor := ⟨"rC", by decide, by decide, by decide⟩
  issuingIssue := .native

/-- The same names, the last two in one door. -/
def straddledIssuing : Bridge where
  lockingDoor := ⟨"rA", by decide, by decide, by decide⟩
  lockingIssue := .native
  issuingDoor := ⟨straddling "rB" "rC", by decide +kernel, by decide +kernel, by decide +kernel⟩
  issuingIssue := .native

theorem straddled_apart : Apart [straddledLocking, straddledIssuing] := by
  -- Each key is worked out in a step of its own, and their first bytes differ.
  have hlocking : straddledLocking.partitionKey.head? = some 166 := by
    decide +kernel
  have hissuing : straddledIssuing.partitionKey.head? ≠ some 166 := by
    decide +kernel
  apply apart_pair
  intro h
  exact hissuing (h ▸ hlocking)

end Bridge

/-- Ten drops that leave the bridge's locking chain. -/
def Transfer.across (b : Bridge) : Transfer :=
  { Transfer.sample "A" 7 10 with bridge := b }

namespace Holding

def straddledClaim : Event :=
  .claim (.across .straddledLocking) 1 none

/-- An account creation on the other bridge, with the same transaction and number. -/
def straddledCreation : Event :=
  .createAccount (.across .straddledIssuing) 1 (.native 1) Bridge.straddledIssuing.lockingDoor

def straddledWrites : List Operation :=
  [.reopen, .write none ⟨[.insertClaim ((Identity.sample 0).attest straddledClaim),
    .insertAccountCreate ((Identity.sample 0).attest straddledCreation),
    .advance .locking "A" 7], false⟩]

/-- Two bridges whose texts differ in their escapes only have rows under different keys. -/
theorem partitions_apart_straddled :
    Bridge.straddledLocking.toJson.chars.filter (· ≠ '\\') =
      Bridge.straddledIssuing.toJson.chars.filter (· ≠ '\\') ∧
    ∃ r r', (fresh.run straddledWrites).database.rows .claim .lockingToIssuing = [r] ∧
      (fresh.run straddledWrites).database.rows .createAccount .lockingToIssuing = [r'] ∧
      r.bridgeKey ≠ r'.bridgeKey := by
  obtain ⟨hclaims, hcreations⟩ :
      (fresh.run straddledWrites).database.rows .claim .lockingToIssuing =
        [Row.ofAttestation ((Identity.sample 0).attest straddledClaim)] ∧
      (fresh.run straddledWrites).database.rows .createAccount .lockingToIssuing =
        [Row.ofAttestation ((Identity.sample 0).attest straddledCreation)] := ⟨rfl, rfl⟩
  refine ⟨by decide +kernel, _, _, hclaims, hcreations, ?_⟩
  obtain ⟨a, a', hread, hread', hkeys⟩ := partitions_apart.2 straddledWrites
    .claim .createAccount .lockingToIssuing .lockingToIssuing
    _ (hclaims ▸ List.mem_singleton_self _) _ (hcreations ▸ List.mem_singleton_self _)
  cases ((Identity.sample 0).read_attest straddledClaim).symm.trans hread
  cases ((Identity.sample 0).read_attest straddledCreation).symm.trans hread'
  rw [Ne, hkeys Bridge.straddled_apart]
  decide +kernel

end Holding

end Attestor
