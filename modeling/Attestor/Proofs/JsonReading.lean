import Attestor.Json.Printer
import Attestor.Json.Reader
import Attestor.Proofs.NumberReading

namespace Attestor.Json

theorem unit_control :
    ∀ n < 0x20, unit? '0' '0' (hexDigit (n / 16)) (hexDigit (n % 16)) = some n := by
  decide

theorem stringBody_short {c e : Char} (hu : c ≠ 'u') (he : escaped? c = some e)
    (rest : List Char) :
    stringBody? ('\\' :: c :: rest) = (stringBody? rest).map fun r => (e :: r.1, r.2) := by
  rw [stringBody?, he]
  rintro _ _ _ _ _ rfl
  exact absurd rfl hu

theorem stringBody_control {c : Char} (hc : c.toNat < 0x20) (rest : List Char) :
    stringBody? ('\\' :: 'u' :: '0' :: '0' :: hexDigit (c.toNat / 16) :: hexDigit (c.toNat % 16)
      :: rest) = (stringBody? rest).map fun r => (c :: r.1, r.2) := by
  have hh : isHighSurrogate c.toNat = false := by simp [isHighSurrogate]; omega
  have hl : isLowSurrogate c.toNat = false := by simp [isLowSurrogate]; omega
  rw [stringBody?, unit_control c.toNat hc]
  simp only [hh, hl, Bool.false_eq_true, ↓reduceIte, Char.ofNat_toNat]

theorem stringBody_plain {c : Char} (hq : c ≠ '"') (hb : c ≠ '\\') (hc : ¬c.toNat < 0x20)
    (rest : List Char) :
    stringBody? (c :: rest) = (stringBody? rest).map fun r => (c :: r.1, r.2) := by
  rw [stringBody?, if_neg (by simp [hb, hc])]
  · exact hq
  · intro _ _ _ _ _ h
    exact absurd h hb
  · intro _ _ h
    exact absurd h hb

/-- A printed character is read back as itself, and nothing after it is touched. -/
theorem stringBody_escape (c : Char) (rest : List Char) :
    stringBody? (escape c ++ rest) = (stringBody? rest).map fun r => (c :: r.1, r.2) := by
  unfold escape
  split
  · rename_i h
    rcases h with rfl | rfl <;> exact stringBody_short (by decide) rfl rest
  · rename_i h
    rw [not_or] at h
    iterate 5
      split
      · subst c
        exact stringBody_short (by decide) rfl rest
    split
    · rename_i hc
      exact stringBody_control hc rest
    · rename_i hc
      exact stringBody_plain h.1 h.2 hc rest

theorem stringBody_escapes (text rest : List Char) :
    stringBody? (text.flatMap escape ++ '"' :: rest) = some (text, rest) := by
  induction text with
  | nil => rfl
  | cons c text ih =>
    rw [List.flatMap_cons, List.append_assoc, stringBody_escape, ih]
    rfl

/-- A printed text is read back up to its closing quote. -/
theorem stringBody_quote (s : String) (rest : List Char) :
    ∃ body, quote s ++ rest = '"' :: body ∧ stringBody? body = some (s.toList, rest) := by
  refine ⟨s.toList.flatMap escape ++ '"' :: rest, ?_, stringBody_escapes s.toList rest⟩
  simp [quote]

/-- The printed value is read back, whatever follows it, with that many levels of nesting left. -/
def ReadsBack (depth : Nat) (j : Json) : Prop :=
  ∀ fuel rest, j.chars.length ≤ fuel → read? fuel depth (j.chars ++ rest) = some (j, rest)

theorem readsBack_string (depth : Nat) (s : String) : ReadsBack depth (.string s) := by
  intro fuel rest hf
  obtain ⟨body, hq, hb⟩ := stringBody_quote s rest
  obtain ⟨fuel, rfl⟩ : ∃ n, fuel = n + 1 := by
    refine ⟨fuel - 1, ?_⟩
    simp only [chars, quote, List.length_cons, List.cons_append] at hf
    omega
  rw [chars, hq, read?, skipSpace, List.dropWhile_cons_of_neg (by decide)]
  simp only [hb, Option.map_some, String.ofList_toList]

theorem readsBack_null (depth : Nat) : ReadsBack depth .null := by
  intro fuel rest hf
  obtain ⟨fuel, rfl⟩ : ∃ n, fuel = n + 1 := by
    refine ⟨fuel - 1, ?_⟩
    simp only [chars, List.length_cons] at hf
    omega
  rfl

/-- A text that goes on with no number. -/
def EndsNumber (rest : List Char) : Prop :=
  ∀ c ∈ rest.head?, Text.isDigit c = false ∧ c ≠ '.' ∧ c ≠ 'e' ∧ c ≠ 'E'

theorem endsNumber_cons {c : Char} (h : Text.isDigit c = false ∧ c ≠ '.' ∧ c ≠ 'e' ∧ c ≠ 'E')
    (rest : List Char) : EndsNumber (c :: rest) := by
  rintro _ ⟨⟩
  exact h

/-- The printed value is read back where no number goes on after it. -/
def ReadsApart (depth : Nat) (j : Json) : Prop :=
  ∀ fuel rest, EndsNumber rest → j.chars.length ≤ fuel →
    read? fuel depth (j.chars ++ rest) = some (j, rest)

theorem ReadsBack.apart {depth : Nat} {j : Json} (h : ReadsBack depth j) : ReadsApart depth j :=
  fun fuel rest _ hf => h fuel rest hf

theorem skipSpace_cons {c : Char} (h : isSpace c = false) (rest : List Char) :
    skipSpace (c :: rest) = c :: rest := by
  rw [skipSpace, List.dropWhile_cons_of_neg (by simp [h])]

open Text

/-- The digits of a number end where something else begins. -/
theorem EndsNumber.digits {rest : List Char} (h : EndsNumber rest) (n : Nat) :
    (Nat.toDigits 10 n ++ rest).takeWhile isDigit = Nat.toDigits 10 n ∧
      (Nat.toDigits 10 n ++ rest).dropWhile isDigit = rest := by
  rw [List.takeWhile_append_of_pos fun _ => isDigit_of_mem,
    List.dropWhile_append_of_pos fun _ => isDigit_of_mem]
  cases rest with
  | nil => simp
  | cons c rest => simp [(h c rfl).1]

/-- A number begins with a digit, and with a zero only if that is all. -/
theorem toDigits_cons (n : Nat) : ∃ c digits, Nat.toDigits 10 n = c :: digits ∧
    (∀ d, isDigit d = false → c ≠ d) ∧ (c = '0' → digits = []) := by
  have hfirst : ∀ {c digits}, Nat.toDigits 10 n = c :: digits → ∀ d, isDigit d = false → c ≠ d := by
    rintro c digits hc d hd rfl
    rw [isDigit_of_mem (hc ▸ List.mem_cons_self)] at hd
    cases hd
  obtain rfl | hn := Nat.eq_zero_or_pos n
  · exact ⟨'0', [], rfl, hfirst rfl, fun _ => rfl⟩
  · obtain ⟨c, digits, hc, h0⟩ := toDigits_head hn
    exact ⟨c, digits, hc, hfirst hc, fun h => absurd h h0⟩

theorem Number.read_toDigits {n : Nat} (h : n < twoPow 64) {rest : List Char}
    (hr : EndsNumber rest) :
    Number.read? (Nat.toDigits 10 n ++ rest) = some (.integer n, rest) := by
  obtain ⟨hdigits, hrest⟩ := hr.digits n
  obtain ⟨c, digits, hc, hfirst, hzero⟩ := toDigits_cons n
  have hwhole : c :: digits ≠ [] ∧
      ((c :: digits).head? = some '0' → (c :: digits).length = 1) :=
    ⟨by simp, fun h0 => by rw [hzero (Option.some.inj h0)]; rfl⟩
  have hjson : Spelling.json? ⟨false, c :: digits, none, none⟩ = some (.integer n) := by
    rw [← hc]
    simp [Spelling.json?, h]
  rw [hc] at hdigits hrest ⊢
  rw [List.cons_append] at hdigits hrest ⊢
  unfold Number.read?
  delta guard
  split
  rename_i hs
  split at hs
  · rename_i tail ht
    exact absurd (List.cons.inj ht).1 (hfirst '-' (by decide))
  · obtain ⟨rfl, rfl⟩ := Prod.mk.inj hs
    simp only [hdigits, hrest, if_pos hwhole]
    -- Neither a fraction nor an exponent follows.
    cases rest with
    | nil =>
      simp only [pure_bind, Option.bind_eq_bind, Option.bind_some, hjson]
      rfl
    | cons e rest =>
      obtain ⟨-, hp, he, hE⟩ := hr e rfl
      split
      · rename_i heq
        exact absurd (List.cons.inj heq).1 hp
      · simp only [he, hE, or_self, ↓reduceIte, pure_bind, Option.bind_eq_bind, Option.bind_some,
          hjson]
        rfl

theorem readsApart_natural (depth : Nat) {n : Nat} (h : n < twoPow 64) :
    ReadsApart depth (.integer n) := by
  intro fuel rest hr hf
  have hchars : chars (.integer n) = Nat.toDigits 10 n := by
    rw [chars]
    exact Nat.toList_repr
  have hread := Number.read_toDigits h hr
  obtain ⟨c, digits, hc, hfirst, -⟩ := toDigits_cons n
  rw [hchars, hc] at hf
  rw [hchars]
  rw [hc, List.cons_append] at hread ⊢
  obtain ⟨fuel, rfl⟩ : ∃ k, fuel = k + 1 := by
    rw [List.length_cons] at hf
    exact ⟨fuel - 1, by omega⟩
  have hspace : isSpace c = false := by
    simp only [isSpace, Bool.or_eq_false_iff, beq_eq_false_iff_ne]
    exact ⟨⟨⟨hfirst _ rfl, hfirst _ rfl⟩, hfirst _ rfl⟩, hfirst _ rfl⟩
  rw [read?, skipSpace_cons hspace]
  split
  case h_7 => exact hread
  all_goals
    rename_i heq
    exact absurd (List.cons.inj heq).1 (hfirst _ (by decide))

theorem readsBack_bool (depth : Nat) (b : Bool) : ReadsBack depth (.bool b) := by
  intro fuel rest hf
  obtain ⟨fuel, rfl⟩ : ∃ n, fuel = n + 1 := by
    refine ⟨fuel - 1, ?_⟩
    cases b <;> simp only [chars, List.length_cons] at hf <;> omega
  cases b <;> rw [chars, read?, List.cons_append, skipSpace_cons (by decide)] <;> rfl

/-- A printed member is read back, and a comma after it leads on to more. -/
theorem readMembers_more {depth fuel : Nat} (name : String) {j : Json} (hj : ReadsApart depth j)
    (hf : j.chars.length ≤ fuel) (rest : List Char) :
    readMembers? (fuel + 1) depth (quote name ++ ':' :: j.chars ++ ',' :: rest) =
      (readMembers? fuel depth rest).map fun r => ((name, j) :: r.1, r.2) := by
  obtain ⟨body, hq, hb⟩ := stringBody_quote name (':' :: j.chars ++ ',' :: rest)
  have hr := hj fuel (',' :: rest) (endsNumber_cons (by decide) rest) hf
  rw [List.append_assoc, hq, readMembers?, skipSpace_cons (by decide)]
  simp only [hb, List.cons_append, skipSpace_cons (c := ':') (by decide), hr,
    skipSpace_cons (c := ',') (by decide), String.ofList_toList]

theorem readMembers_last {depth fuel : Nat} (name : String) {j : Json} (hj : ReadsApart depth j)
    (hf : j.chars.length ≤ fuel) (rest : List Char) :
    readMembers? (fuel + 1) depth (quote name ++ ':' :: j.chars ++ '\x7d' :: rest) =
      some ([(name, j)], rest) := by
  obtain ⟨body, hq, hb⟩ := stringBody_quote name (':' :: j.chars ++ '\x7d' :: rest)
  have hr := hj fuel ('\x7d' :: rest) (endsNumber_cons (by decide) rest) hf
  rw [List.append_assoc, hq, readMembers?, skipSpace_cons (by decide)]
  simp only [hb, List.cons_append, skipSpace_cons (c := ':') (by decide), hr,
    skipSpace_cons (c := '\x7d') (by decide), String.ofList_toList]

/-- Members are read back one after the other, up to the closing brace. -/
theorem readMembers_printed {depth : Nat} {m : String × Json} {members : List (String × Json)}
    (h : ∀ p ∈ m :: members, ReadsApart depth p.2) {fuel : Nat} (rest : List Char)
    (hf : (memberChars (m :: members)).length ≤ fuel) :
    readMembers? fuel depth (memberChars (m :: members) ++ rest) = some (m :: members, rest) := by
  obtain ⟨name, j⟩ := m
  have hj : ReadsApart depth j := h (name, j) (by simp)
  induction members generalizing name j fuel with
  | nil =>
    have hm : memberChars [(name, j)] = quote name ++ ':' :: j.chars ++ ['\x7d'] := by
      rw [memberChars]
    rw [hm] at hf ⊢
    simp only [List.length_append, List.length_cons, List.length_nil] at hf
    obtain ⟨fuel, rfl⟩ : ∃ n, fuel = n + 1 := ⟨fuel - 1, by omega⟩
    rw [List.append_assoc, List.singleton_append]
    exact readMembers_last name hj (by omega) rest
  | cons n members ih =>
    obtain ⟨other, k⟩ := n
    have hm : memberChars ((name, j) :: (other, k) :: members) =
        quote name ++ ':' :: j.chars ++ ',' :: memberChars ((other, k) :: members) := by
      rw [memberChars]
      exact nofun
    rw [hm] at hf ⊢
    simp only [List.length_append, List.length_cons] at hf
    obtain ⟨fuel, rfl⟩ : ∃ n, fuel = n + 1 := ⟨fuel - 1, by omega⟩
    have hr : readMembers? fuel depth (memberChars ((other, k) :: members) ++ rest) =
        some ((other, k) :: members, rest) := by
      apply ih other k
      · intro p hp
        exact h p (List.mem_cons_of_mem _ hp)
      · omega
      · exact h (other, k) (by simp)
    rw [List.append_assoc, List.cons_append, readMembers_more name hj (by omega), hr]
    rfl

/-- An object is read back if its members are: what follows a member goes on with no number. -/
theorem readsBack_members {depth : Nat} {members : List (String × Json)}
    (h : ∀ p ∈ members, ReadsApart depth p.2) : ReadsBack (depth + 1) (.object members) := by
  intro fuel rest hf
  rw [chars, List.length_cons] at hf
  obtain ⟨fuel, rfl⟩ : ∃ n, fuel = n + 1 := ⟨fuel - 1, by omega⟩
  rw [chars, List.cons_append, read?, skipSpace_cons (by decide)]
  cases members with
  | nil => simp [memberChars, skipSpace_cons (c := '\x7d') (by decide)]
  | cons m members =>
    have hm := readMembers_printed h rest (Nat.le_of_succ_le_succ hf)
    obtain ⟨front, hfront⟩ : ∃ front, memberChars (m :: members) = '"' :: front := by
      obtain ⟨name, j⟩ := m
      cases members with
      | nil => exact ⟨_, by rw [memberChars, quote]; rfl⟩
      | cons => exact ⟨_, by rw [memberChars, quote]; rfl; exact nofun⟩
    rw [hfront] at hm ⊢
    simp only [List.cons_append, skipSpace_cons (c := '"') (by decide)] at hm ⊢
    change (readMembers? fuel depth _).map _ = _
    rw [hm]
    rfl

theorem readsBack_object {depth : Nat} {members : List (String × Json)}
    (h : ∀ p ∈ members, ReadsBack depth p.2) : ReadsBack (depth + 1) (.object members) :=
  readsBack_members fun p hp => (h p hp).apart

/-- A value that is read back is what its compact text denotes. -/
theorem document_compact {j : Json} (h : ReadsBack depthLimit j) :
    document? j.compact = some j := by
  have hr := h (2 * j.chars.length + 1) [] (by omega)
  rw [List.append_nil] at hr
  simp only [document?, compact, String.toList_ofList, hr]
  rfl

/-- A member of a new name takes a place among the others. -/
theorem insertMember_perm {name : String} {members : List (String × Json)}
    (h : name ∉ members.map (·.1)) (j : Json) :
    (insertMember name j members).Perm ((name, j) :: members) := by
  induction members with
  | nil => exact .refl _
  | cons m members ih =>
    obtain ⟨other, old⟩ := m
    rw [List.map_cons, List.mem_cons, not_or] at h
    rw [insertMember, if_neg h.1]
    split
    · exact .refl _
    · exact ((ih h.2).cons _).trans (.swap ..)

/-- Members of different names are only moved. -/
theorem sortMembers_perm {members : List (String × Json)} (h : (members.map (·.1)).Nodup) :
    (sortMembers members).Perm members := by
  have hgo : ∀ done : List (String × Json), ((members ++ done).map (·.1)).Nodup →
      (members.foldl (fun done m => insertMember m.1 m.2 done) done).Perm (members ++ done) := by
    clear h
    induction members with
    | nil => exact fun done _ => .refl _
    | cons m members ih =>
      intro done hn
      have hnew : m.1 ∉ done.map (·.1) := by
        intro hm
        rw [List.cons_append, List.map_cons] at hn
        apply (List.nodup_cons.mp hn).1
        rw [List.map_append, List.mem_append]
        exact .inr hm
      have hmove : (members ++ insertMember m.1 m.2 done).Perm (m :: (members ++ done)) :=
        ((insertMember_perm hnew m.2).append_left members).trans List.perm_middle
      exact (ih (insertMember m.1 m.2 done) ((hmove.map _).nodup_iff.mpr hn)).trans hmove
  simpa [sortMembers] using hgo [] (by simpa using h)

theorem sortedMembers_eq (members : List (String × Json)) :
    sortedMembers members = members.map fun m => (m.1, m.2.sorted) := by
  induction members with
  | nil => rw [sortedMembers, List.map_nil]
  | cons m members ih => rw [sortedMembers, ih, List.map_cons]

end Attestor.Json
