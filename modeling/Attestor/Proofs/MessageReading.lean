import Attestor.Transfer.Message

namespace Attestor

namespace Bytes

theorem ofString_inj {s t : String} (h : ofString s = ofString t) : s = t := by
  apply String.toByteArray_inj.mp
  exact ByteArray.ext (Array.toList_inj.mp h)

theorem length_ofString (s : String) : (ofString s).length = s.utf8ByteSize := by
  rw [ofString, Array.length_toList]
  rfl

/-- Numbers of one width end at the same place, and keep all their digits if they fit. -/
theorem bigEndian_cancel (width : Nat) {m n : Nat} {r q : Bytes} (hm : m < Nat.pow 256 width)
    (hn : n < Nat.pow 256 width) (h : bigEndian width m ++ r = bigEndian width n ++ q) :
    m = n ∧ r = q := by
  obtain ⟨hb, hr⟩ := List.append_inj h (by rw [length_bigEndian, length_bigEndian])
  refine ⟨?_, hr⟩
  rw [← toNatBig_bigEndian width m hm, hb, toNatBig_bigEndian width n hn]

end Bytes

/-- A character takes four bytes at most. -/
theorem utf8_size_le (s : String) : s.utf8ByteSize ≤ 4 * s.toList.length := by
  have hl : ∀ cs : List Char, (String.ofList cs).utf8ByteSize ≤ 4 * cs.length := by
    intro cs
    induction cs with
    | nil => simp
    | cons c cs ih =>
      have hc := c.utf8Size_le_four
      rw [String.ofList_cons, String.utf8ByteSize_append, String.utf8ByteSize_singleton,
        List.length_cons]
      omega
  simpa using hl s.toList

theorem Currency.short (c : Currency) : c.code.utf8ByteSize ≤ 160 := by
  have hs := utf8_size_le c.code
  rcases c.valid with hc | hc <;> rw [hc.1] at hs <;> omega

namespace Message

/-- The two bytes of the length hold it, so they tell where the text ends. -/
theorem text_cancel {s t : String} {r q : Bytes} (hs : s.utf8ByteSize ≤ 160)
    (ht : t.utf8ByteSize ≤ 160) (h : text s ++ r = text t ++ q) : s = t ∧ r = q := by
  have room : ∀ n, n ≤ 160 → n < Nat.pow 256 2 := by
    intro n hn
    have : Nat.pow 256 2 = 65536 := rfl
    omega
  simp only [text, List.append_assoc] at h
  obtain ⟨hl, h⟩ := Bytes.bigEndian_cancel 2 (room _ hs) (room _ ht) h
  obtain ⟨hb, hr⟩ := List.append_inj h (by rw [Bytes.length_ofString, Bytes.length_ofString, hl])
  exact ⟨Bytes.ofString_inj hb, hr⟩

theorem account_cancel {a b : AccountId} {r q : Bytes}
    (h : text a.text ++ r = text b.text ++ q) : a = b ∧ r = q := by
  have hshort : ∀ a : AccountId, a.text.utf8ByteSize ≤ 160 := by
    intro a
    have := a.short
    omega
  obtain ⟨he, hr⟩ := text_cancel (hshort a) (hshort b) h
  cases a
  cases b
  cases he
  exact ⟨rfl, hr⟩

theorem currency_cancel {a b : Currency} {r q : Bytes}
    (h : text a.code ++ r = text b.code ++ q) : a = b ∧ r = q := by
  obtain ⟨he, hr⟩ := text_cancel a.short b.short h
  cases a
  cases b
  cases he
  exact ⟨rfl, hr⟩

/-- The first byte separates the native asset from the issued ones. -/
theorem issue_cancel {i j : Issue} {r q : Bytes} (h : issue i ++ r = issue j ++ q) :
    i = j ∧ r = q := by
  cases i with
  | native =>
    cases j with
    | native => exact ⟨rfl, by simpa [issue] using h⟩
    | issued => simp [issue, nativeTag, issuedTag] at h
  | issued currency issuer =>
    cases j with
    | native => simp [issue, nativeTag, issuedTag] at h
    | issued currency' issuer' =>
      simp only [issue, List.cons_append, List.append_assoc, List.cons.injEq, true_and] at h
      obtain ⟨rfl, hi⟩ := currency_cancel h
      obtain ⟨rfl, hr⟩ := account_cancel hi
      exact ⟨rfl, hr⟩

theorem bridge_cancel {b c : Bridge} {r q : Bytes} (h : bridge b ++ r = bridge c ++ q) :
    b = c ∧ r = q := by
  obtain ⟨_, _, _, _⟩ := b
  obtain ⟨_, _, _, _⟩ := c
  simp only [bridge, List.append_assoc] at h
  obtain ⟨rfl, h₁⟩ := account_cancel h
  obtain ⟨rfl, h₂⟩ := issue_cancel h₁
  obtain ⟨rfl, h₃⟩ := account_cancel h₂
  obtain ⟨rfl, hr⟩ := issue_cancel h₃
  exact ⟨rfl, hr⟩

theorem word_cancel {m n : UInt64} {r q : Bytes}
    (h : Bytes.bigEndian 8 m.toNat ++ r = Bytes.bigEndian 8 n.toNat ++ q) : m = n ∧ r = q := by
  obtain ⟨he, hr⟩ := Bytes.bigEndian_cancel 8 m.toNat_lt n.toNat_lt h
  exact ⟨UInt64.toNat_inj.mp he, hr⟩

/-- Negative mantissas and exponents are written in two's complement, which loses nothing. -/
theorem decimal_cancel {d e : Decimal} {r q : Bytes}
    (h : Bytes.bigEndian 8 d.mantissa.toUInt64.toNat
        ++ (Bytes.bigEndian 4 d.exponent.toUInt32.toNat ++ r) =
      Bytes.bigEndian 8 e.mantissa.toUInt64.toNat
        ++ (Bytes.bigEndian 4 e.exponent.toUInt32.toNat ++ q)) : d = e ∧ r = q := by
  obtain ⟨hm, hx⟩ := word_cancel h
  obtain ⟨he, hr⟩ := Bytes.bigEndian_cancel 4 d.exponent.toUInt32.toNat_lt
    e.exponent.toUInt32.toNat_lt hx
  have hmantissa : d.mantissa = e.mantissa := congrArg Int64.ofUInt64 hm
  have hexponent : d.exponent = e.exponent := congrArg Int32.ofUInt32 (UInt32.toNat_inj.mp he)
  refine ⟨?_, hr⟩
  cases d
  cases e
  cases hmantissa
  cases hexponent
  rfl

theorem amount_cancel {a b : Amount} {r q : Bytes} (h : amount a ++ r = amount b ++ q) :
    a = b ∧ r = q := by
  cases a with
  | native drops =>
    cases b with
    | native drops' =>
      simp only [amount, List.cons_append, List.cons.injEq, true_and] at h
      obtain ⟨rfl, hr⟩ := word_cancel h
      exact ⟨rfl, hr⟩
    | issued => simp [amount, nativeTag, issuedTag] at h
  | issued value currency issuer =>
    cases b with
    | native => simp [amount, nativeTag, issuedTag] at h
    | issued value' currency' issuer' =>
      simp only [amount, List.cons_append, List.append_assoc, List.cons.injEq, true_and] at h
      obtain ⟨rfl, hc⟩ := decimal_cancel h
      obtain ⟨rfl, hi⟩ := currency_cancel hc
      obtain ⟨rfl, hr⟩ := account_cancel hi
      exact ⟨rfl, hr⟩

theorem key_eq {k l : ClaimKey} (ht : k.tag = l.tag) (hv : k.value = l.value) : k = l := by
  cases k <;> cases l <;> simp_all [ClaimKey.tag, ClaimKey.value]

theorem direction_eq {d e : Direction} (h : d.tag = e.tag) : d = e := by
  cases d <;> cases e <;> first | rfl | cases h

/-- No message continues a different one. In particular a signature for one transfer is a signature
for no other transfer, amount, bridge or direction. -/
theorem encode_prefix_iff (b b' : Bridge) (a a' : Amount) (k k' : ClaimKey) (d d' : Direction) :
    encode b a k d <+: encode b' a' k' d' ↔ b = b' ∧ a = a' ∧ k = k' ∧ d = d' := by
  constructor
  · rintro ⟨rest, h⟩
    simp only [encode, List.cons_append, List.append_assoc, List.cons.injEq, true_and] at h
    obtain ⟨ht, hb⟩ := h
    obtain ⟨rfl, ha⟩ := bridge_cancel hb
    obtain ⟨rfl, hk⟩ := amount_cancel ha
    obtain ⟨hv, hd⟩ := word_cancel hk
    exact ⟨rfl, rfl, key_eq ht hv, direction_eq (List.cons.inj hd).1⟩
  · rintro ⟨rfl, rfl, rfl, rfl⟩
    exact List.prefix_refl _

end Message

end Attestor
