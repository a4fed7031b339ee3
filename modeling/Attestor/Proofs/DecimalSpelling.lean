import Attestor.Proofs.DecimalNormal
import Mathlib.Data.List.TakeWhile

namespace Attestor.Decimal

namespace Spelling

/-- Digits before and after a point. The point may be left out where no digit follows it. -/
inductive Pointed : List Char → List Char → List Char → Prop
  | whole (whole : List Char) : Pointed whole whole []
  | point (whole fraction : List Char) : Pointed (whole ++ '.' :: fraction) whole fraction

/-- A written exponent of 32 bits with a sign of its own, or none. -/
inductive Scaled : List Char → Int → Prop
  | none : Scaled [] 0
  | mark {mark : Char} {text : List Char} {x : Int} (marks : mark = 'e' ∨ mark = 'E')
      (integer : Text.SpellsInteger text x) (fits : FitsSigned 32 x) : Scaled (mark :: text) x

/-- The text is an optional sign, digits with at most one point and at least one digit, and an
optional exponent. -/
structure Spells (text : List Char) (p : Spelling) : Prop where
  parts : ∃ sign digits scale, text = sign ++ (digits ++ scale) ∧ Text.Sign sign p.negative ∧
    Pointed digits p.whole p.fraction ∧ Scaled scale p.exponent
  digits : Text.Digits (p.whole ++ p.fraction)

end Spelling

theorem takeSign_split (text : List Char) :
    ∃ sign, text = sign ++ (takeSign text).2 ∧ Text.Sign sign (takeSign text).1 := by
  unfold takeSign
  split
  · exact ⟨['-'], rfl, .minus⟩
  · exact ⟨['+'], rfl, .plus⟩
  · exact ⟨[], rfl, .none⟩

theorem takeSign_append {sign body : List Char} {negative : Bool} (h : Text.Sign sign negative)
    (hp : body.head? ≠ some '+') (hm : body.head? ≠ some '-') :
    takeSign (sign ++ body) = (negative, body) := by
  cases h with
  | none =>
    rw [List.nil_append]
    unfold takeSign
    split
    · exact absurd rfl hm
    · exact absurd rfl hp
    · rfl
  | plus => rfl
  | minus => rfl

theorem mark_iff {c : Char} : isExponentMark c = true ↔ c = 'e' ∨ c = 'E' := by
  simp [isExponentMark]

/-- The exponent starts at the first mark, and what stands in front of it has none. -/
theorem takeExponent_iff {text number : List Char} {x : Int} :
    takeExponent? text = some (number, x) ↔
      ∃ scale, text = number ++ scale ∧ Spelling.Scaled scale x ∧
        ∀ c ∈ number, isExponentMark c = false := by
  constructor
  · intro h
    unfold takeExponent? at h
    split at h
    · rename_i hnone
      obtain ⟨rfl, rfl⟩ := Prod.mk.inj (Option.some.inj h)
      refine ⟨[], (List.append_nil _).symm, .none, ?_⟩
      simpa using List.dropWhile_eq_nil_iff.mp hnone
    · rename_i mark rest hmark
      obtain ⟨e, he, heq⟩ := Option.map_eq_some_iff.mp h
      obtain ⟨rfl, rfl⟩ := Prod.mk.inj heq
      obtain ⟨hinteger, hfits⟩ := Text.signed_iff.mp he
      refine ⟨mark :: rest, ?_, .mark ?_ hinteger hfits, ?_⟩
      · rw [← hmark, List.takeWhile_append_dropWhile]
      · have hhead := List.head?_dropWhile_not (!isExponentMark ·) text
        rw [hmark] at hhead
        exact mark_iff.mp (by simpa using hhead)
      · intro c hc
        simpa using List.mem_takeWhile_imp hc
  · rintro ⟨scale, rfl, hs, hn⟩
    have hpass : ∀ c ∈ number, (!isExponentMark c) = true := by simpa using hn
    cases hs with
    | none =>
      rw [List.append_nil, takeExponent?, List.dropWhile_eq_nil_iff.mpr hpass]
    | @mark mark rest x marks integer fits =>
      have hmark : ¬ (!isExponentMark mark) = true := by simpa using mark_iff.mpr marks
      have hd : (number ++ mark :: rest).dropWhile (!isExponentMark ·) = mark :: rest := by
        rw [List.dropWhile_append_of_pos hpass,
          List.dropWhile_cons_of_neg (p := (!isExponentMark ·)) hmark]
      have ht : (number ++ mark :: rest).takeWhile (!isExponentMark ·) = number := by
        rw [List.takeWhile_append_of_pos hpass,
          List.takeWhile_cons_of_neg (p := (!isExponentMark ·)) hmark, List.append_nil]
      simp only [takeExponent?, hd, ht, Text.signed_iff.mpr ⟨integer, fits⟩, Option.map_some]

theorem mark_of_digit {c : Char} (h : Text.isDigit c = true) : isExponentMark c = false := by
  rw [Bool.eq_false_iff]
  intro hm
  rcases mark_iff.mp hm with rfl | rfl <;> exact absurd h (by decide)

theorem point_of_digit {c : Char} (h : Text.isDigit c = true) : (c != '.') = true := by
  rw [bne_iff_ne]
  rintro rfl
  exact absurd h (by decide)

namespace Spelling

theorem pointed_split (text : List Char) :
    Pointed text (text.takeWhile (· != '.')) ((text.dropWhile (· != '.')).drop 1) := by
  have hsplit : text.takeWhile (· != '.') ++ text.dropWhile (· != '.') = text :=
    List.takeWhile_append_dropWhile
  cases hrest : text.dropWhile (· != '.') with
  | nil =>
    rw [hrest, List.append_nil] at hsplit
    rw [hsplit]
    exact .whole text
  | cons c rest =>
    have hhead := List.head?_dropWhile_not (· != '.') text
    rw [hrest] at hhead
    obtain rfl : c = '.' := by simpa using hhead
    rw [hrest] at hsplit
    have hp := Pointed.point (text.takeWhile (· != '.')) rest
    rwa [hsplit] at hp

theorem Pointed.split {text whole fraction : List Char} (h : Pointed text whole fraction)
    (hw : ∀ c ∈ whole, (c != '.') = true) :
    text.takeWhile (· != '.') = whole ∧ (text.dropWhile (· != '.')).drop 1 = fraction := by
  cases h with
  | whole =>
    rw [List.takeWhile_eq_self_iff.mpr hw, List.dropWhile_eq_nil_iff.mpr hw]
    exact ⟨rfl, rfl⟩
  | point =>
    rw [List.takeWhile_append_of_pos hw, List.dropWhile_append_of_pos hw,
      List.takeWhile_cons_of_neg (by decide), List.dropWhile_cons_of_neg (by decide),
      List.append_nil]
    exact ⟨rfl, rfl⟩

theorem Pointed.ne_nil {text whole fraction : List Char} (h : Pointed text whole fraction)
    (hne : whole ++ fraction ≠ []) : text ≠ [] := by
  cases h with
  | whole => simpa using hne
  | point => simp

theorem Pointed.mem {text whole fraction : List Char} (h : Pointed text whole fraction) :
    ∀ c ∈ text, c = '.' ∨ c ∈ whole ++ fraction := by
  intro c hc
  cases h with
  | whole => exact .inr (List.mem_append_left _ hc)
  | point =>
    rw [List.mem_append, List.mem_cons] at hc
    rw [List.mem_append]
    rcases hc with hc | rfl | hc
    · exact .inr (.inl hc)
    · exact .inl rfl
    · exact .inr (.inr hc)

/-- A text is read as the one spelling that it is. -/
theorem read_iff {text : List Char} {p : Spelling} : read? text = some p ↔ Spells text p := by
  constructor
  · intro h
    obtain ⟨sign, hsign, hs⟩ := takeSign_split text
    rw [read?] at h
    dsimp only at h
    split at h
    · cases h
    · rename_i number x he
      split at h
      · rename_i hd
        obtain ⟨scale, hbody, hscale, -⟩ := takeExponent_iff.mp he
        cases h
        refine ⟨⟨sign, number, scale, ?_, hs, pointed_split number, hscale⟩, hd.1, ?_⟩
        · rw [← hbody]
          exact hsign
        · exact List.all_eq_true.mp hd.2
      · cases h
  · rintro ⟨⟨sign, number, scale, rfl, hs, hp, hscale⟩, hne, hd⟩
    have hdigit : ∀ c ∈ number, c = '.' ∨ Text.isDigit c = true := by
      intro c hc
      exact (hp.mem c hc).imp_right (hd c)
    have hmark : ∀ c ∈ number, isExponentMark c = false := by
      intro c hc
      obtain rfl | hc := hdigit c hc
      · rfl
      · exact mark_of_digit hc
    have hwhole : ∀ c ∈ p.whole, (c != '.') = true := by
      intro c hc
      exact point_of_digit (hd c (List.mem_append_left _ hc))
    have hsign : ∀ c, c = '+' ∨ c = '-' → (number ++ scale).head? ≠ some c := by
      intro c hc hhead
      obtain ⟨d, rest, rfl⟩ := List.exists_cons_of_ne_nil (hp.ne_nil hne)
      obtain rfl : d = c := Option.some.inj hhead
      obtain rfl | hd := hdigit d (List.mem_cons_self ..)
      · rcases hc with hc | hc <;> cases hc
      · have hn := Text.sign_ne_digit hd
        exact hc.elim hn.1 hn.2
    obtain ⟨htake, hdrop⟩ := hp.split hwhole
    simp only [read?, takeSign_append hs (hsign _ (.inl rfl)) (hsign _ (.inr rfl)),
      takeExponent_iff.mpr ⟨scale, rfl, hscale, hmark⟩, htake, hdrop]
    rw [if_pos ⟨hne, List.all_eq_true.mpr hd⟩]

end Spelling

end Attestor.Decimal
