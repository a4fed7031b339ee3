import Attestor.Proofs.CodecReading
import Attestor.Proofs.DecimalValue
import Attestor.Proofs.HexReading
import Attestor.Proofs.TableChanges
import Attestor.Transfer.Attestation

namespace Attestor

namespace Decode

theorem string_ok (s : String) : string "a string" (.string s) = .ok s :=
  rfl

theorem bool_ok (b : Bool) : bool (.bool b) = .ok b :=
  rfl

theorem uint32_toNat (n : UInt32) : uint32 (.integer n.toNat) = .ok n := by
  have hf : FitsUnsigned 32 (n.toNat : Int) := ⟨by omega, by exact_mod_cast n.toNat_lt⟩
  rw [uint32, natural, if_pos hf]
  simp [Except.map]

theorem hex_encode (bytes : Bytes) : hex (.string (Text.Hex.encode bytes)) = .ok bytes := by
  rw [hex, Text.Hex.decode_encode]
  rfl

/-- An object with one of the names for its key is read as the name says. -/
theorem choice_named {names : List (String × Decoder α)} {name : String} {decode : Decoder α}
    (h : findName names name = .ok decode) (j : Json) :
    choice names (.object [(name, j)]) = decode j := by
  rw [choice, h]
  rfl

namespace Record

theorem Fits.decode_open {r : Record α} {members : List (String × Json)} {a : α}
    (h : r.Fits members a) (hn : (members.map (·.1)).Nodup) (type : String) (d : Dialect) :
    r.decode type false d (.object members) = .ok a :=
  h.decode hn (fun hclosed : false = true => nomatch hclosed) type d

theorem absent_fits {name : String} {decode : Decoder α} {a : α}
    {short : Nat → String → Except DecodeError α} {members : List (String × Json)}
    (h : name ∉ members.map (·.1)) : (field name decode (.ok a) short).Fits members a := by
  refine ⟨?_, ?_⟩
  · rintro ⟨other, j⟩ hm
    have hother : other ≠ name := by
      rintro rfl
      exact h (List.mem_map_of_mem hm)
    simp only [field, if_neg hother]
  · have hl : lookup name members = none := by
      rw [lookup, List.find?_eq_none.mpr, Option.map_none]
      intro m hm he
      exact h (beq_iff_eq.mp he ▸ List.mem_map_of_mem hm)
    simp only [field, hl]

/-- The members are those of a form in some order, each as it is there or in key order itself. -/
structure Carry (members form : List (String × Json)) : Prop where
  distinct : (form.map (·.1)).Nodup
  names : (members.map (·.1)).Perm (form.map (·.1))
  carried : ∀ m ∈ form, m ∈ members ∨ (m.1, m.2.sorted) ∈ members

section

variable {members form : List (String × Json)}

theorem Carry.refl (distinct : (form.map (·.1)).Nodup) : Carry form form :=
  ⟨distinct, .refl _, fun _ => .inl⟩

theorem Carry.sorted (distinct : (form.map (·.1)).Nodup) :
    Carry (Json.sortMembers (Json.sortedMembers form)) form := by
  have hnames : (Json.sortedMembers form).map (·.1) = form.map (·.1) := by
    rw [Json.sortedMembers_eq, List.map_map]
    rfl
  have hp := Json.sortMembers_perm (hnames ▸ distinct)
  refine ⟨distinct, hnames ▸ hp.map (·.1), ?_⟩
  intro m hm
  refine .inr (hp.mem_iff.mpr ?_)
  rw [Json.sortedMembers_eq]
  exact List.mem_map_of_mem hm

variable {name : String} {j : Json}

theorem Carry.fits (h : Carry members form) {decode : Decoder α} {absent : Except DecodeError α}
    {short : Nat → String → Except DecodeError α} (hm : (name, j) ∈ form) {a : α}
    (hd : decode j = .ok a) (hs : decode j.sorted = .ok a) :
    (field name decode absent short).Fits members a := by
  have hn := h.names.nodup_iff.mpr h.distinct
  obtain hin | hin := h.carried _ hm
  · exact field_fits hn hin hd
  · exact field_fits hn hin hs

theorem Carry.lookup (h : Carry members form) (hm : (name, j) ∈ form) (hs : j.sorted = j) :
    lookup name members = some j := by
  have hn := h.names.nodup_iff.mpr h.distinct
  obtain hin | hin := h.carried _ hm
  · exact lookup_of_mem hn hin
  · exact hs ▸ lookup_of_mem hn hin

end

end Record

end Decode

open Decode Json

theorem Role.ofJson_toJson (d : Dialect) (r : Role) : ofJson d r.toJson = .ok r := by
  cases r <;> rfl

namespace ClaimKey

theorem ofJson_toJson (k : ClaimKey) : ofJson k.toJson = .ok k := by
  have hname : findName (TransferKind.all.map fun kind =>
      (kind.name, fun j => (uint64 j).map kind.key)) k.kind.name =
      .ok fun j => (uint64 j).map k.kind.key := by
    cases k <;> rfl
  have hread : ofJson k.toJson = (uint64 (.integer k.value.toNat)).map k.kind.key :=
    choice_named hname _
  rw [hread, uint64_toNat]
  exact congrArg Except.ok k.key_kind_value

theorem sorted_toJson (k : ClaimKey) : k.toJson.sorted = k.toJson := by
  simp [toJson, sorted, sortedMembers, sortMembers, insertMember]

theorem ofJson_sorted (k : ClaimKey) : ofJson k.toJson.sorted = .ok k := by
  rw [sorted_toJson, ofJson_toJson]

theorem readsBack (depth : Nat) (k : ClaimKey) : ReadsBack (depth + 1) k.toJson := by
  apply readsBack_members
  simp only [List.forall_mem_cons, List.not_mem_nil, false_implies, implies_true, and_true]
  exact readsApart_natural depth k.value.toNat_lt

end ClaimKey

theorem AccountId.readsBack_option (depth : Nat) (a : Option AccountId) :
    ReadsBack depth (.ofOption toJson a) := by
  cases a with
  | none => exact readsBack_null depth
  | some a => exact readsBack_string depth a.text

theorem AccountId.ofJson_option (a : Option AccountId) :
    optional ofJson (.ofOption toJson a) = .ok a ∧
      optional ofJson (Json.ofOption toJson a).sorted = .ok a := by
  cases a with
  | none => exact ⟨rfl, rfl⟩
  | some a =>
    have h : (ofJson a.toJson).map some = .ok (some a) := by
      rw [ofJson_toJson]
      rfl
    exact ⟨h, h⟩

theorem Issue.ofJson_sorted (i : Issue) : ofJson i.toJson.sorted = .ok i := by
  rw [sorted_toJson, ofJson_toJson]

theorem Amount.ofJson_sorted (a : Amount) : ofJson a.toJson.sorted = .ok a := by
  rw [sorted_toJson, ofJson_toJson]

theorem Amount.ofJson_option (a : Amount) :
    optional ofJson a.toJson = .ok (some a) ∧ optional ofJson a.toJson.sorted = .ok (some a) := by
  have h : optional ofJson a.toJson = .ok (some a) := by
    have hread : optional ofJson a.toJson = (ofJson a.toJson).map some := by
      cases a <;> rfl
    rw [hread, ofJson_toJson]
    rfl
  exact ⟨h, a.sorted_toJson.symm ▸ h⟩

namespace Event

/-- The fields that a transfer of that kind is decoded from. -/
def fields : TransferKind → Record Event
  | .claim => claimFields
  | .createAccount => createFields

theorem claim_fits {t : Transfer} {n : UInt64} {destination : Option AccountId}
    {members form : List (String × Json)} (hc : Record.Carry members form)
    (hform : (claim t n destination).toJson = .object form) :
    claimFields.Fits members (claim t n destination) := by
  obtain ⟨source, id, ledger, amount, bridge, sender, reward, success⟩ := t
  obtain rfl := Json.object.inj hform
  exact ((((((((((hc.fits (by simp) (Role.ofJson_toJson ..) (Role.ofJson_toJson ..)).map _).seq
    (hc.fits (by simp) (string_ok id) (string_ok id))).seq
    (hc.fits (by simp) (uint32_toNat ledger) (uint32_toNat ledger))).seq
    (hc.fits (by simp) (uint64_toNat n) (uint64_toNat n))).seq
    (hc.fits (by simp) amount.ofJson_toJson amount.ofJson_sorted)).seq
    (hc.fits (by simp) (bridge.ofJson_toJson _) (bridge.ofJson_sorted _))).seq
    (hc.fits (by simp) sender.ofJson_toJson sender.ofJson_toJson)).seq
    (hc.fits (by simp) reward.ofJson_toJson reward.ofJson_toJson)).seq
    (hc.fits (by simp) (AccountId.ofJson_option _).1 (AccountId.ofJson_option _).2)).seq
    (hc.fits (by simp) (bool_ok success) (bool_ok success))

theorem create_fits {t : Transfer} {n : UInt64} {reward : Amount} {destination : AccountId}
    {members form : List (String × Json)} (hc : Record.Carry members form)
    (hform : (createAccount t n reward destination).toJson = .object form) :
    createFields.Fits members (createAccount t n reward destination) := by
  obtain ⟨source, id, ledger, amount, bridge, sender, rewarded, success⟩ := t
  obtain rfl := Json.object.inj hform
  exact (((((((((((hc.fits (by simp) (Role.ofJson_toJson ..) (Role.ofJson_toJson ..)).map _).seq
    (hc.fits (by simp) (string_ok id) (string_ok id))).seq
    (hc.fits (by simp) (uint32_toNat ledger) (uint32_toNat ledger))).seq
    (hc.fits (by simp) (uint64_toNat n) (uint64_toNat n))).seq
    (hc.fits (by simp) amount.ofJson_toJson amount.ofJson_sorted)).seq
    (hc.fits (by simp) reward.ofJson_toJson reward.ofJson_sorted)).seq
    (hc.fits (by simp) (bridge.ofJson_toJson _) (bridge.ofJson_sorted _))).seq
    (hc.fits (by simp) sender.ofJson_toJson sender.ofJson_toJson)).seq
    (hc.fits (by simp) rewarded.ofJson_toJson rewarded.ofJson_toJson)).seq
    (hc.fits (by simp) destination.ofJson_toJson destination.ofJson_toJson)).seq
    (hc.fits (by simp) (bool_ok success) (bool_ok success))

/-- The members of the form: the kind, and the fields that it is decoded from. -/
theorem form (e : Event) : ∃ form, e.toJson = .object form ∧
    form.map (·.1) = "kind" :: (fields e.key.kind).names ∧
    ("kind", .string e.key.kind.name) ∈ form := by
  cases e <;> exact ⟨_, rfl, rfl, by simp [key, ClaimKey.kind, TransferKind.name]⟩

theorem form_distinct {e : Event} {form : List (String × Json)}
    (h : form.map (·.1) = "kind" :: (fields e.key.kind).names) : (form.map (·.1)).Nodup := by
  rw [h]
  cases e.key.kind <;> decide

/-- The members of an event are read in any order. -/
theorem ofJson_carry {e : Event} {members form : List (String × Json)}
    (hform : e.toJson = .object form) (hkind : ("kind", .string e.key.kind.name) ∈ form)
    (hc : Record.Carry members form) : ofJson (.object members) = .ok e := by
  have hn := hc.names.nodup_iff.mpr hc.distinct
  have hread : ofFields e.key.kind (.object members) = .ok e := by
    cases e with
    | claim t n destination => exact (claim_fits hc hform).decode_open hn "ClaimEvent" .tagged
    | createAccount t n reward destination =>
      exact (create_fits hc hform).decode_open hn "AccountCreateEvent" .tagged
  simp only [ofJson, hc.lookup hkind rfl]
  cases e <;> exact hread

theorem ofJson_toJson (e : Event) : ofJson e.toJson = .ok e := by
  obtain ⟨form, hform, hnames, hkind⟩ := e.form
  rw [hform]
  exact ofJson_carry hform hkind (.refl (form_distinct hnames))

theorem ofJson_sorted (e : Event) : ofJson e.toJson.sorted = .ok e := by
  obtain ⟨form, hform, hnames, hkind⟩ := e.form
  rw [hform, sorted]
  exact ofJson_carry hform hkind (.sorted (form_distinct hnames))

theorem readsBack (depth : Nat) (e : Event) : ReadsBack (depth + 3) e.toJson := by
  have hledger := (e.ledgerSequence.toNat_lt.trans (by decide) : e.ledgerSequence.toNat < twoPow 64)
  cases e with
  | claim t n destination =>
    apply readsBack_members
    simp only [List.forall_mem_cons, List.not_mem_nil, false_implies, implies_true, and_true]
    exact ⟨(readsBack_string _ _).apart, (readsBack_string _ _).apart, (readsBack_string _ _).apart,
      readsApart_natural _ hledger, readsApart_natural _ n.toNat_lt,
      (Amount.readsBack _ _).apart, (Bridge.readsBack _ _).apart, (readsBack_string _ _).apart,
      (readsBack_string _ _).apart, (AccountId.readsBack_option _ _).apart,
      (readsBack_bool _ _).apart⟩
  | createAccount t n reward destination =>
    apply readsBack_members
    simp only [List.forall_mem_cons, List.not_mem_nil, false_implies, implies_true, and_true]
    exact ⟨(readsBack_string _ _).apart, (readsBack_string _ _).apart, (readsBack_string _ _).apart,
      readsApart_natural _ hledger, readsApart_natural _ n.toNat_lt,
      (Amount.readsBack _ _).apart, (Amount.readsBack _ _).apart, (Bridge.readsBack _ _).apart,
      (readsBack_string _ _).apart, (readsBack_string _ _).apart, (readsBack_string _ _).apart,
      (readsBack_bool _ _).apart⟩

end Event

namespace Attestation

/-- The members of the form: all fields, but for the reward where there is none. -/
theorem form (a : Attestation) : ∃ form, a.toJson = .object form ∧
    form.map (·.1) = fields.names.filter fun name =>
      name ≠ "reward_amount" ∨ a.rewardAmount.isSome = true := by
  refine ⟨_, rfl, ?_⟩
  cases a.rewardAmount <;> rfl

theorem fits {a : Attestation} {members form : List (String × Json)}
    (hform : a.toJson = .object form) (hc : Record.Carry members form) :
    fields.Fits members a := by
  obtain ⟨direction, key, id, ledger, success, amount, reward, bridge, sender, rewarded,
    destination, signer, publicKey, signature⟩ := a
  obtain rfl := Json.object.inj hform
  have hreward : (Record.defaulted "reward_amount" (optional Amount.ofJson) none).Fits members
      reward := by
    cases reward with
    | none =>
      apply Record.absent_fits
      rw [hc.names.mem_iff]
      simp
    | some reward => exact hc.fits (by simp) reward.ofJson_option.1 reward.ofJson_option.2
  exact ((((((((((((((hc.fits (by simp) (direction.ofJson_toJson _)
    (direction.ofJson_toJson _)).map _).seq
    (hc.fits (by simp) key.ofJson_toJson key.ofJson_sorted)).seq
    (hc.fits (by simp) (string_ok id) (string_ok id))).seq
    (hc.fits (by simp) (uint32_toNat ledger) (uint32_toNat ledger))).seq
    (hc.fits (by simp) (bool_ok success) (bool_ok success))).seq
    (hc.fits (by simp) amount.ofJson_toJson amount.ofJson_sorted)).seq
    hreward).seq
    (hc.fits (by simp) (bridge.ofJson_toJson _) (bridge.ofJson_sorted _))).seq
    (hc.fits (by simp) sender.ofJson_toJson sender.ofJson_toJson)).seq
    (hc.fits (by simp) rewarded.ofJson_toJson rewarded.ofJson_toJson)).seq
    (hc.fits (by simp) (AccountId.ofJson_option _).1 (AccountId.ofJson_option _).2)).seq
    (hc.fits (by simp) signer.ofJson_toJson signer.ofJson_toJson)).seq
    (hc.fits (by simp) (hex_encode publicKey) (hex_encode publicKey))).seq
    (hc.fits (by simp) (hex_encode signature) (hex_encode signature))

theorem ofJson_carry {a : Attestation} {members form : List (String × Json)}
    (hform : a.toJson = .object form) (hc : Record.Carry members form) :
    ofJson (.object members) = .ok a :=
  (fits hform hc).decode_open (hc.names.nodup_iff.mpr hc.distinct) "Attestation" .plain

theorem form_distinct {a : Attestation} {form : List (String × Json)}
    (h : form.map (·.1) = fields.names.filter fun name =>
      name ≠ "reward_amount" ∨ a.rewardAmount.isSome = true) : (form.map (·.1)).Nodup := by
  rw [h]
  exact List.Nodup.filter _ (by decide)

theorem ofJson_toJson (a : Attestation) : ofJson a.toJson = .ok a := by
  obtain ⟨form, hform, hnames⟩ := a.form
  rw [hform]
  exact ofJson_carry hform (.refl (form_distinct hnames))

theorem ofJson_sorted (a : Attestation) : ofJson a.toJson.sorted = .ok a := by
  obtain ⟨form, hform, hnames⟩ := a.form
  rw [hform, sorted]
  exact ofJson_carry hform (.sorted (form_distinct hnames))

theorem readsBack (depth : Nat) (a : Attestation) : ReadsBack (depth + 3) a.toJson := by
  have hledger : a.ledgerSequence.toNat < twoPow 64 := a.ledgerSequence.toNat_lt.trans (by decide)
  apply readsBack_members
  simp only [List.forall_mem_append, List.forall_mem_cons, List.not_mem_nil, false_implies,
    implies_true, and_true]
  refine ⟨⟨⟨(readsBack_string _ _).apart, (a.key.readsBack _).apart, (readsBack_string _ _).apart,
    readsApart_natural _ hledger, (readsBack_bool _ _).apart, (Amount.readsBack _ _).apart⟩,
    ?_⟩, (Bridge.readsBack _ _).apart, (readsBack_string _ _).apart,
    (readsBack_string _ _).apart, (AccountId.readsBack_option _ _).apart,
    (readsBack_string _ _).apart, (readsBack_string _ _).apart, (readsBack_string _ _).apart⟩
  cases a.rewardAmount with
  | none => simp
  | some amount => simpa using (Amount.readsBack _ amount).apart

end Attestation

/-- The spelling in which a currency code is kept. -/
def Currency.canonical (code : String) : String :=
  if code.toList.length = 40 then upper code else code

theorem Currency.canonical_of_ofString {code : String} {c : Currency} (h : ofString code = .ok c) :
    c.code = canonical code := by
  unfold ofString at h
  split at h
  · rename_i hlong
    split at h
    · rw [← Except.ok.inj h, canonical, if_pos hlong.1]
    · cases h
  · split at h
    · rename_i hshort
      split at h
      · cases h
      · have hlength : code.toList.length ≠ 40 := by omega
        rw [← Except.ok.inj h, canonical, if_neg hlength]
    · cases h

namespace Decode.Record

variable {members : List (String × Json)}

theorem read_of_decode {r : Record α} {type : String} {closed : Bool} {d : Dialect} {a : α}
    (h : r.decode type closed d (.object members) = .ok a) : r.ofMembers members = .ok a := by
  obtain ⟨_, -, h⟩ := Except.bind_ok h
  exact h

theorem read_map {f : α → β} {r : Record α} {b : β} (h : (f <$> r).ofMembers members = .ok b) :
    ∃ a, r.ofMembers members = .ok a ∧ f a = b :=
  Except.map_ok h

theorem read_seq {f : Record (α → β)} {r : Record α} {b : β}
    (h : (f <*> r).ofMembers members = .ok b) :
    ∃ g a, f.ofMembers members = .ok g ∧ r.ofMembers members = .ok a ∧ g a = b := by
  obtain ⟨g, hg, h⟩ := Except.bind_ok h
  obtain ⟨a, ha, h⟩ := Except.bind_ok h
  exact ⟨g, a, hg, ha, Except.ok.inj h⟩

theorem read_text {name s : String} (h : (required name string).ofMembers members = .ok s) :
    lookup name members = some (.string s) := by
  simp only [required, field] at h
  split at h
  · rename_i j hj
    cases j <;> cases h
    exact hj
  · cases h

end Decode.Record

theorem Except.of_mapError {x : Except ε α} {f : ε → δ} {a : α} (h : x.mapError f = .ok a) :
    x = .ok a := by
  cases x with
  | error e => cases h
  | ok b => exact congrArg Except.ok (Except.ok.inj h)

/-- An issued asset is written with the code in its one spelling and the issuer as it was read. -/
theorem Issue.toJson_of_object {members : List (String × Json)} {i : Issue}
    (h : ofJson (.object members) = .ok i) : ∃ code issuer,
    Record.lookup "currency" members = some (.string code) ∧
      Record.lookup "issuer" members = some (.string issuer) ∧
      i.toJson = .object [("currency", .string (Currency.canonical code)),
        ("issuer", .string issuer)] := by
  simp only [ofJson] at h
  split at h
  · rename_i code issuer hfields
    obtain ⟨g, b, hg, hb, hgb⟩ := Record.read_seq (Record.read_of_decode hfields)
    obtain ⟨a, ha, rfl⟩ := Record.read_map hg
    obtain ⟨rfl, rfl⟩ := Prod.mk.inj hgb
    obtain ⟨c, hc, h⟩ := Except.bind_ok (Except.of_mapError h)
    obtain ⟨account, haccount, h⟩ := Except.bind_ok h
    obtain rfl := Except.ok.inj h
    refine ⟨a, b, Record.read_text ha, Record.read_text hb, ?_⟩
    rw [toJson, Currency.toJson, AccountId.toJson, Currency.canonical_of_ofString hc,
      AccountId.text_of_ofString haccount]
  · cases h

/-- An issued amount is written with code and value in their one spelling. -/
theorem Amount.toJson_of_object {members : List (String × Json)} {a : Amount}
    (h : ofJson (.object members) = .ok a) : ∃ code issuer text value,
    Record.lookup "currency" members = some (.string code) ∧
      Record.lookup "issuer" members = some (.string issuer) ∧
      Record.lookup "value" members = some (.string text) ∧ Decimal.ofString text = .ok value ∧
      a.toJson = .object [("currency", .string (Currency.canonical code)),
        ("issuer", .string issuer), ("value", .string value.toString)] := by
  simp only [ofJson] at h
  split at h
  · rename_i code issuer text hfields
    obtain ⟨g, t, hg, ht, hgt⟩ := Record.read_seq (Record.read_of_decode hfields)
    obtain ⟨_, b, hg', hb, rfl⟩ := Record.read_seq hg
    obtain ⟨c, hc, rfl⟩ := Record.read_map hg'
    simp only [Prod.mk.injEq] at hgt
    obtain ⟨rfl, rfl, rfl⟩ := hgt
    obtain ⟨value, hvalue, h⟩ := Except.bind_ok (Except.of_mapError h)
    obtain ⟨currency, hcurrency, h⟩ := Except.bind_ok h
    obtain ⟨account, haccount, h⟩ := Except.bind_ok h
    obtain rfl := Except.ok.inj h
    refine ⟨c, b, t, value, Record.read_text hc, Record.read_text hb, Record.read_text ht, hvalue,
      ?_⟩
    rw [toJson, Currency.toJson, AccountId.toJson, Currency.canonical_of_ofString hcurrency,
      AccountId.text_of_ofString haccount]
  · cases h

namespace Json

/-- Forms and decoder of a type go together. -/
structure RoundTrip (encode : α → Json) (decode : Decoder α) : Prop where
  /-- a value is read back from its form -/
  back : ∀ a, decode (encode a) = .ok a
  /-- also where the members of all objects are in key order -/
  ordered : ∀ a, decode (encode a).sorted = .ok a
  /-- the form is what its text says -/
  text : ∀ a, document? (encode a).compact = some (encode a)
  /-- whatever was read from, the form that is written again is read as the same value, and is the
  one that this is written as once more -/
  settles : ∀ j a, decode j = .ok a →
    ∃ b, decode (encode a) = .ok b ∧ b = a ∧ encode b = encode a

theorem RoundTrip.of {encode : α → Json} {decode : Decoder α}
    (back : ∀ a, decode (encode a) = .ok a) (ordered : ∀ a, decode (encode a).sorted = .ok a)
    (reads : ∀ a, ReadsBack depthLimit (encode a)) : RoundTrip encode decode where
  back := back
  ordered := ordered
  text a := document_compact (reads a)
  settles _ a _ := ⟨a, back a, rfl, rfl⟩

/-- The names of an object's members. -/
def names : Json → List String
  | object members => members.map (·.1)
  | _ => []

/-- What may be spelled or laid out in several ways is written in one. -/
structure OneForm : Prop where
  /-- long currency codes are in upper case -/
  issue : ∀ members i, Issue.ofJson (.object members) = .ok i → ∃ code issuer,
    Record.lookup "currency" members = some (.string code) ∧
      Record.lookup "issuer" members = some (.string issuer) ∧
      i.toJson = .object [("currency", .string (Currency.canonical code)),
        ("issuer", .string issuer)]
  amount : ∀ members a, Amount.ofJson (.object members) = .ok a → ∃ code issuer text value,
    Record.lookup "currency" members = some (.string code) ∧
      Record.lookup "issuer" members = some (.string issuer) ∧
      Record.lookup "value" members = some (.string text) ∧ Decimal.ofString text = .ok value ∧
      a.toJson = .object [("currency", .string (Currency.canonical code)),
        ("issuer", .string issuer), ("value", .string value.toString)]
  /-- amounts of one value have one spelling, and no others have it -/
  value : ∀ j k a b, Amount.ofJson j = .ok a → Amount.ofJson k = .ok b →
    (a.toJson = b.toJson ↔ a.SameValue b)
  /-- the kind stands in a member of its own, before the fields that it is decoded with -/
  event : ∀ e : Event, e.toJson.names = "kind" :: (Event.fields e.key.kind).names ∧
    e.toJson.member? "kind" = some (.string e.key.kind.name) ∧
    e.toJson.member? "other_chain_destination" = some (.ofOption AccountId.toJson e.destination?)
  /-- the destination is null where there is none, and the reward is left out -/
  attestation : ∀ a : Attestation,
    a.toJson.names = (Attestation.fields.names.filter fun name =>
      name ≠ "reward_amount" ∨ a.rewardAmount.isSome = true) ∧
    a.toJson.member? "reward_amount" = a.rewardAmount.map Amount.toJson ∧
    a.toJson.member? "other_chain_destination" = some (.ofOption AccountId.toJson a.destination)

theorem oneForm : OneForm where
  issue _ _ := Issue.toJson_of_object
  amount _ _ := Amount.toJson_of_object
  value _ _ a b _ _ := by
    rw [Amount.sameValue_iff]
    refine ⟨?_, congrArg Amount.toJson⟩
    intro h
    have hback := congrArg Amount.ofJson h
    rw [Amount.ofJson_toJson, Amount.ofJson_toJson] at hback
    exact Except.ok.inj hback
  event e := by
    cases e <;> exact ⟨rfl, rfl, rfl⟩
  attestation a := by
    obtain ⟨direction, key, id, ledger, success, amount, reward, bridge, sender, rewarded,
      destination, signer, publicKey, signature⟩ := a
    cases reward <;> exact ⟨rfl, rfl, rfl⟩

/-- Every value is read back from its form, and every form that is accepted settles on one. -/
theorem forms_round_trip :
    RoundTrip Event.toJson Event.ofJson ∧ RoundTrip Attestation.toJson Attestation.ofJson ∧
      (∀ d, RoundTrip Bridge.toJson (Bridge.ofJson d)) ∧
      RoundTrip Amount.toJson Amount.ofJson ∧ RoundTrip Issue.toJson Issue.ofJson ∧
      RoundTrip ClaimKey.toJson ClaimKey.ofJson ∧ OneForm := by
  refine ⟨?_, ?_, ?_, ?_, ?_, ?_, oneForm⟩
  · exact .of Event.ofJson_toJson Event.ofJson_sorted (Event.readsBack 124)
  · exact .of Attestation.ofJson_toJson Attestation.ofJson_sorted (Attestation.readsBack 124)
  · intro d
    exact .of (Bridge.ofJson_toJson d) (Bridge.ofJson_sorted d) (Bridge.readsBack 125)
  · exact .of Amount.ofJson_toJson Amount.ofJson_sorted (Amount.readsBack 126)
  · exact .of Issue.ofJson_toJson Issue.ofJson_sorted (Issue.readsBack 126)
  · exact .of ClaimKey.ofJson_toJson ClaimKey.ofJson_sorted (ClaimKey.readsBack 126)

end Json

end Attestor
