import Attestor.Proofs.CodecReading

namespace Attestor

/-- What a decimal number is written with, apart from digits. -/
def Decimal.marks : List Char :=
  ['+', '-', '.', 'e', 'E']

theorem Text.Sign.marks {sign : List Char} {negative : Bool} (h : Sign sign negative) :
    ∀ c ∈ sign, c ∈ Decimal.marks := by
  cases h <;> simp [Decimal.marks]

theorem Decimal.Spelling.Spells.chars {text : List Char} {p : Spelling} (h : p.Spells text) :
    ∀ c ∈ text, Text.isDigit c = true ∨ c ∈ marks := by
  obtain ⟨negative, whole, fraction, x⟩ := p
  obtain ⟨⟨sign, number, scale, rfl, hs, hp, hx⟩, -, hd⟩ := h
  intro c hc
  rcases List.mem_append.mp hc with hc | hc
  · exact .inr (hs.marks c hc)
  rcases List.mem_append.mp hc with hc | hc
  · rcases hp.mem c hc with rfl | hc
    · exact .inr (by decide)
    · exact .inl (hd c hc)
  · cases hx with
    | none => cases hc
    | mark marks integer fits =>
      obtain ⟨sign, digits, negative, rfl, hs, hdigits, -⟩ := integer
      rcases List.mem_cons.mp hc with rfl | hc
      · rcases marks with rfl | rfl <;> exact .inr (by decide)
      · rcases List.mem_append.mp hc with hc | hc
        · exact .inr (hs.marks c hc)
        · exact .inl (hdigits.2 c hc)

theorem Decimal.slash_free (d : Decimal) : '/' ∉ d.toString.toList := by
  intro h
  obtain ⟨p, hp⟩ := spells_of_ofString (ofString_toString d)
  exact absurd (hp.chars '/' h) (by decide)

theorem Currency.slash_free (c : Currency) : '/' ∉ c.code.toList := by
  intro h
  rcases c.valid with ⟨-, hall, -⟩ | ⟨-, hall⟩
  · exact absurd (List.all_eq_true.mp hall '/' h) (by decide)
  · exact absurd (List.all_eq_true.mp hall '/' h) (by decide)

namespace Amount

theorem pieces_length (text : List Char) : (pieces text).length = text.count '/' + 1 := by
  fun_induction pieces text with
  | case1 => rfl
  | case2 rest ih => simp [ih]
  | case3 c rest hc hp ih => simp [hp] at ih
  | case4 c rest hc piece others hp ih =>
    have hne : c ≠ '/' := hc
    rw [List.count_cons_of_ne hne, ← ih, hp]
    rfl

theorem pieces_plain {piece : List Char} (h : '/' ∉ piece) : pieces piece = [piece] := by
  induction piece with
  | nil => rfl
  | cons c rest ih =>
    have hne : c ≠ '/' := fun hc => h (hc ▸ List.mem_cons_self ..)
    have hrest := ih fun hr => h (List.mem_cons_of_mem _ hr)
    rw [pieces, hrest]
    exact hne

theorem pieces_append {piece : List Char} (h : '/' ∉ piece) (rest : List Char) :
    pieces (piece ++ '/' :: rest) = piece :: pieces rest := by
  induction piece with
  | nil => rfl
  | cons c more ih =>
    have hne : c ≠ '/' := fun hc => h (hc ▸ List.mem_cons_self ..)
    rw [List.cons_append, pieces, ih fun hr => h (List.mem_cons_of_mem _ hr)]
    exact hne

/-- Whether the issuer of an amount has a slash. -/
def slashed : Amount → Bool
  | native _ => false
  | issued _ _ issuer => issuer.text.toList.contains '/'

theorem pieces_issued (value : Decimal) (currency : Currency) (issuer : AccountId) :
    pieces (issued value currency issuer).toString.toList =
      value.toString.toList :: currency.code.toList :: pieces issuer.text.toList := by
  have htext : (issued value currency issuer).toString.toList =
      value.toString.toList ++ '/' :: (currency.code.toList ++ '/' :: issuer.text.toList) := by
    simp [toString]
  rw [htext, pieces_append value.slash_free, pieces_append currency.slash_free]

theorem ofString_native (drops : UInt64) :
    ofString (native drops).toString = .ok (native drops) := by
  have hdigits : (native drops).toString.toList = Nat.toDigits 10 drops.toNat := Nat.toList_repr
  have hplain : '/' ∉ Nat.toDigits 10 drops.toNat := by
    intro h
    exact absurd (Text.isDigit_of_mem h) (by decide)
  rw [ofString, hdigits, pieces_plain hplain]
  exact ofDrops_toString drops

theorem ofString_issued {value : Decimal} {currency : Currency} {issuer : AccountId}
    (h : '/' ∉ issuer.text.toList) :
    ofString (issued value currency issuer).toString = .ok (issued value currency issuer) := by
  rw [ofString, pieces_issued, pieces_plain h]
  simp only [String.ofList_toList, ofTexts, Decimal.ofString_toString, Currency.ofString_code,
    AccountId.ofString_text]
  rfl

theorem ofString_slashed {value : Decimal} {currency : Currency} {issuer : AccountId}
    (h : '/' ∈ issuer.text.toList) :
    ofString (issued value currency issuer).toString =
      .error (.amountParts (issued value currency issuer).toString) := by
  have hlength := pieces_length issuer.text.toList
  have hcount := List.count_pos_iff.mpr h
  obtain ⟨first, second, rest, hmore⟩ : ∃ first second rest,
      pieces issuer.text.toList = first :: second :: rest := by
    match hp : pieces issuer.text.toList with
    | [] | [_] =>
      simp only [hp, List.length_nil, List.length_singleton] at hlength
      omega
    | first :: second :: rest => exact ⟨first, second, rest, rfl⟩
  rw [ofString, pieces_issued, hmore]

/-- An amount is read back from its compact form unless its issuer has a slash. -/
theorem compact_form_reads_back (a : Amount) :
    ofString a.toString = if a.slashed then .error (.amountParts a.toString) else .ok a := by
  cases a with
  | native drops => exact ofString_native drops
  | issued value currency issuer =>
    by_cases h : '/' ∈ issuer.text.toList
    · have hs : (issued value currency issuer).slashed = true := List.contains_iff_mem.mpr h
      rw [if_pos hs]
      exact ofString_slashed h
    · have hs : ¬ (issued value currency issuer).slashed = true := mt List.contains_iff_mem.mp h
      rw [if_neg hs]
      exact ofString_issued h

/-- One unit of a currency that an issuer with a slash in its name issues. -/
def slashedUnit : Amount :=
  issued ⟨1000000000000000, -15, by decide⟩ ⟨"USD", by decide⟩
    ⟨"r/x", by decide, by decide, by decide⟩

/-- Its compact form has four parts, so nothing reads it back. -/
theorem slashedUnit_unread :
    slashedUnit.toString = "1/USD/r/x" ∧
      ofString slashedUnit.toString = .error (.amountParts "1/USD/r/x") ∧
        ofString slashedUnit.toString ≠ .ok slashedUnit := by
  have htext : slashedUnit.toString = "1/USD/r/x" := by decide +kernel
  have hread : ofString "1/USD/r/x" = .error (.amountParts "1/USD/r/x") := by decide
  rw [htext, hread]
  exact ⟨rfl, rfl, by decide⟩

end Amount

end Attestor
