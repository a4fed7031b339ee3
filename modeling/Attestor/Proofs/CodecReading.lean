import Attestor.Bridge.Codec
import Attestor.Proofs.DecimalReading
import Attestor.Proofs.JsonReading
import Mathlib.Data.List.Nodup

namespace Attestor

open Decode

namespace Decode.Record

/-- The members of an object hold a value of the record: each is judged well, and together they are
read as that value. -/
structure Fits (r : Record α) (members : List (String × Json)) (a : α) : Prop where
  judged : ∀ m ∈ members, r.judge m.1 m.2 = .ok ()
  read : r.ofMembers members = .ok a

theorem visit_of_judged {r : Record α} {closed : Bool} {members : List (String × Json)}
    (hj : ∀ m ∈ members, r.judge m.1 m.2 = .ok ()) (hn : (members.map (·.1)).Nodup)
    (hc : closed = true → ∀ m ∈ members, m.1 ∈ r.names) {seen : List String}
    (hs : ∀ m ∈ members, m.1 ∉ seen) : r.visit closed seen members = .ok () := by
  induction members generalizing seen with
  | nil => rfl
  | cons m members ih =>
    obtain ⟨name, j⟩ := m
    obtain ⟨hout, hn⟩ := List.nodup_cons.mp hn
    have hj' := fun p hp => hj p (List.mem_cons_of_mem _ hp)
    have hc' := fun h p hp => hc h p (List.mem_cons_of_mem _ hp)
    have hs' := fun p hp => hs p (List.mem_cons_of_mem _ hp)
    unfold visit
    by_cases hr : name ∈ r.names
    · rw [if_pos hr, if_neg (hs (name, j) (by simp)), hj (name, j) (by simp)]
      refine ih hj' hn hc' ?_
      intro p hp
      rw [List.mem_cons, not_or]
      refine ⟨?_, hs' p hp⟩
      rintro rfl
      exact hout (List.mem_map.mpr ⟨p, hp, rfl⟩)
    · have hopen : closed ≠ true := fun h => hr (hc h (name, j) (by simp))
      rw [if_neg hr, if_neg hopen]
      exact ih hj' hn hc' hs'

theorem Fits.decode {r : Record α} {members : List (String × Json)} {a : α} (h : r.Fits members a)
    {closed : Bool} (hn : (members.map (·.1)).Nodup)
    (hc : closed = true → ∀ m ∈ members, m.1 ∈ r.names) (type : String) (d : Dialect) :
    r.decode type closed d (.object members) = .ok a := by
  rw [Record.decode, visit_of_judged h.judged hn hc (by simp)]
  exact h.read

theorem Fits.map {r : Record α} {members : List (String × Json)} {a : α} (h : r.Fits members a)
    (f : α → β) : (f <$> r).Fits members (f a) :=
  ⟨h.judged, by simp only [Functor.map, Record.map, h.read, Except.map]⟩

theorem Fits.seq {r : Record (α → β)} {q : Record α} {members : List (String × Json)} {f : α → β}
    {a : α} (hr : r.Fits members f) (hq : q.Fits members a) : (r <*> q).Fits members (f a) := by
  refine ⟨?_, ?_⟩
  · intro m hm
    simp only [Seq.seq, Record.seq, hr.judged m hm, hq.judged m hm, bind, Except.bind]
  · simp only [Seq.seq, Record.seq, hr.read, hq.read, bind, Except.bind, pure, Except.pure]

theorem lookup_of_mem {name : String} {members : List (String × Json)}
    (hn : (members.map (·.1)).Nodup) {j : Json} (hm : (name, j) ∈ members) :
    lookup name members = some j := by
  unfold lookup
  cases hf : members.find? fun m => m.1 == name with
  | none => exact absurd (List.find?_eq_none.mp hf _ hm) (by simp)
  | some m =>
    have hname : m.1 = name := by simpa using List.find?_some hf
    rw [List.inj_on_of_nodup_map hn (List.mem_of_find?_eq_some hf) hm hname]
    rfl

theorem field_fits {name : String} {decode : Decoder α} {absent : Except DecodeError α}
    {short : Nat → String → Except DecodeError α} {members : List (String × Json)}
    (hn : (members.map (·.1)).Nodup) {j : Json} {a : α} (hm : (name, j) ∈ members)
    (hd : decode j = .ok a) : (field name decode absent short).Fits members a := by
  refine ⟨?_, ?_⟩
  · rintro ⟨other, k⟩ hk
    dsimp only [field]
    split
    · rename_i h
      subst h
      obtain rfl : k = j := congrArg Prod.snd (List.inj_on_of_nodup_map hn hk hm rfl)
      rw [hd]
      rfl
    · rfl
  · simp only [field, lookup_of_mem hn hm, hd]

theorem required_fits {name : String} {decode : Decoder α} {members : List (String × Json)}
    (hn : (members.map (·.1)).Nodup) {j : Json} {a : α} (hm : (name, j) ∈ members)
    (hd : decode j = .ok a) : (required name decode).Fits members a :=
  field_fits hn hm hd

end Decode.Record

theorem isHexDigit_of_upper {c : Char} (h : isUpperHexDigit c = true) :
    isHexDigit c = true ∧ c.toUpper = c := by
  simp only [isUpperHexDigit, Bool.or_eq_true, Bool.and_eq_true, decide_eq_true_eq] at h
  refine ⟨?_, ?_⟩
  · simp only [isHexDigit, Bool.or_eq_true, Bool.and_eq_true, decide_eq_true_eq]
    rcases h with h | h
    · exact .inl (.inl h)
    · exact .inr h
  · have hc : ¬('a'.val ≤ c.val ∧ c.val ≤ 'z'.val) := by
      rintro ⟨ha, -⟩
      rcases h with h | h
      · exact absurd (Char.le_trans ha h.2) (by decide)
      · exact absurd (Char.le_trans ha h.2) (by decide)
    exact dif_neg hc

@[simp] theorem Currency.ofString_code (c : Currency) : ofString c.code = .ok c := by
  obtain ⟨code, valid⟩ := c
  dsimp only
  rcases id valid with ⟨hl, ha, hn⟩ | hlong
  · unfold ofString
    rw [if_neg (by omega), dif_pos ⟨hl, ha⟩, dif_neg hn]
  · obtain ⟨hl, ha⟩ := id hlong
    rw [List.all_eq_true] at ha
    have hall : code.toList.all isHexDigit = true :=
      List.all_eq_true.mpr fun c hc => (isHexDigit_of_upper (ha c hc)).1
    have hu : upper code = code := by
      rw [upper, List.map_congr_left fun c hc => (isHexDigit_of_upper (ha c hc)).2, List.map_id',
        String.ofList_toList]
    unfold ofString
    rw [if_pos ⟨hl, hall⟩]
    simp only [hu, hlong, ↓reduceDIte]

@[simp] theorem AccountId.ofJson_toJson (a : AccountId) : ofJson a.toJson = .ok a := by
  simp [ofJson, toJson, Decode.text, Decode.string, bind, Except.bind, Except.mapError]

@[simp] theorem Issue.ofJson_toJson (i : Issue) : ofJson i.toJson = .ok i := by
  cases i with
  | native => rfl
  | issued currency issuer =>
    have hf : fields.decode "Issue" false .plain
        (.object [("currency", currency.toJson), ("issuer", issuer.toJson)]) =
        .ok (currency.code, issuer.text) := rfl
    simp only [toJson, ofJson, hf, ofTexts, Currency.ofString_code, AccountId.ofString_text]
    rfl

theorem Text.unsigned_toString (n : UInt64) :
    unsigned? 64 (ToString.toString n.toNat).toList = some n.toNat := by
  rw [show (ToString.toString n.toNat).toList = Nat.toDigits 10 n.toNat from Nat.toList_repr]
  exact unsigned_toDigits n.toNat_lt

theorem Amount.ofDrops_toString (n : UInt64) :
    ofDrops (ToString.toString n.toNat) = .ok (native n) := by
  simp only [ofDrops, Text.unsigned_toString, UInt64.ofNat_toNat]

@[simp] theorem Amount.ofJson_toJson (a : Amount) : ofJson a.toJson = .ok a := by
  cases a with
  | native drops =>
    rw [toJson, ofJson, ofDrops_toString]
    rfl
  | issued value currency issuer =>
    have hf : fields.decode "Amount" false .plain
        (.object [("currency", currency.toJson), ("issuer", issuer.toJson),
          ("value", .string value.toString)]) =
        .ok (currency.code, issuer.text, value.toString) := rfl
    simp only [toJson, ofJson, hf, ofTexts, Decimal.ofString_toString, Currency.ofString_code,
      AccountId.ofString_text]
    rfl

/-- The members of a bridge are read in any order. -/
theorem Bridge.ofJson_members (d : Decode.Dialect) {b : Bridge} {members : List (String × Json)}
    (hp : members.Perm [("locking_chain_door", b.lockingDoor.toJson),
      ("locking_chain_issue", b.lockingIssue.toJson), ("issuing_chain_door", b.issuingDoor.toJson),
      ("issuing_chain_issue", b.issuingIssue.toJson)]) : ofJson d (.object members) = .ok b := by
  have hn : (members.map (·.1)).Perm fields.names := hp.map (·.1)
  have hd : (members.map (·.1)).Nodup := by
    rw [hn.nodup_iff]
    decide
  have hf : fields.Fits members b :=
    ((((Record.required_fits hd (by simp [hp.mem_iff]) (AccountId.ofJson_toJson _)).map mk).seq
      (Record.required_fits hd (by simp [hp.mem_iff]) (Issue.ofJson_toJson _))).seq
      (Record.required_fits hd (by simp [hp.mem_iff]) (AccountId.ofJson_toJson _))).seq
      (Record.required_fits hd (by simp [hp.mem_iff]) (Issue.ofJson_toJson _))
  refine hf.decode hd ?_ _ d
  intro _ m hin
  exact hn.subset (List.mem_map_of_mem hin)

@[simp] theorem Bridge.ofJson_toJson (d : Decode.Dialect) (b : Bridge) :
    ofJson d b.toJson = .ok b :=
  ofJson_members d (.refl _)

theorem Decode.uint64_toNat (n : UInt64) : uint64 (.integer n.toNat) = .ok n := by
  have hf : FitsUnsigned 64 (n.toNat : Int) := ⟨by omega, by exact_mod_cast n.toNat_lt⟩
  rw [uint64, natural, if_pos hf]
  simp [Except.map]

theorem Direction.ofJson_toJson (d : Decode.Dialect) (direction : Direction) :
    ofJson d direction.toJson = .ok direction := by
  cases direction <;> rfl

open Json

theorem Issue.readsBack (depth : Nat) (i : Issue) : ReadsBack (depth + 1) i.toJson := by
  cases i with
  | native => exact readsBack_string _ _
  | issued currency issuer =>
    apply readsBack_object
    simp only [List.forall_mem_cons, List.not_mem_nil, false_implies, implies_true, and_true]
    exact ⟨readsBack_string _ _, readsBack_string _ _⟩

theorem Amount.readsBack (depth : Nat) (a : Amount) : ReadsBack (depth + 1) a.toJson := by
  cases a with
  | native drops => exact readsBack_string _ _
  | issued value currency issuer =>
    apply readsBack_object
    simp only [List.forall_mem_cons, List.not_mem_nil, false_implies, implies_true, and_true]
    exact ⟨readsBack_string _ _, readsBack_string _ _, readsBack_string _ _⟩

theorem Bridge.readsBack (depth : Nat) (b : Bridge) : ReadsBack (depth + 2) b.toJson := by
  apply readsBack_object
  simp only [List.forall_mem_cons, List.not_mem_nil, false_implies, implies_true, and_true]
  exact ⟨readsBack_string _ _, Issue.readsBack depth _, readsBack_string _ _,
    Issue.readsBack depth _⟩

theorem Issue.sorted_toJson (i : Issue) : i.toJson.sorted = i.toJson := by
  cases i with
  | native => rfl
  | issued currency issuer =>
    simp only [toJson, Currency.toJson, AccountId.toJson, sorted, sortedMembers, sortMembers,
      List.foldl_cons, List.foldl_nil, insertMember, String.reduceEq, String.reduceLT, ↓reduceIte]

theorem Amount.sorted_toJson (a : Amount) : a.toJson.sorted = a.toJson := by
  cases a with
  | native drops => rfl
  | issued value currency issuer =>
    simp only [toJson, Currency.toJson, AccountId.toJson, sorted, sortedMembers, sortMembers,
      List.foldl_cons, List.foldl_nil, insertMember, String.reduceEq, String.reduceLT, ↓reduceIte]

theorem Bridge.ofJson_sorted (d : Decode.Dialect) (b : Bridge) :
    ofJson d b.toJson.sorted = .ok b := by
  have hs : b.toJson.sorted = .object (sortMembers [("locking_chain_door", b.lockingDoor.toJson),
      ("locking_chain_issue", b.lockingIssue.toJson), ("issuing_chain_door", b.issuingDoor.toJson),
      ("issuing_chain_issue", b.issuingIssue.toJson)]) := by
    simp only [toJson, AccountId.toJson, sorted, sortedMembers, Issue.sorted_toJson]
  rw [hs]
  exact ofJson_members d (sortMembers_perm (show fields.names.Nodup by decide))

/-- The text of a bridge tells it apart from every other. -/
theorem Bridge.canonicalText_inj {b b' : Bridge} (h : b.canonicalText = b'.canonicalText) :
    b = b' := by
  have hj : some b.toJson = some b'.toJson := by
    rw [← document_compact (b.readsBack 125), ← document_compact (b'.readsBack 125)]
    exact congrArg document? h
  have hd := congrArg (ofJson .plain) (Option.some.inj hj)
  rw [ofJson_toJson, ofJson_toJson] at hd
  exact Except.ok.inj hd

end Attestor
