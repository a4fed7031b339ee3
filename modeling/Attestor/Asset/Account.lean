import Attestor.Asset.Error

namespace Attestor

/-- The ASCII characters with a glyph; the space is not one of them. -/
def isVisible (c : Char) : Bool :=
  '!' ≤ c && c ≤ '~'

/-- An account: one to 128 visible ASCII characters, otherwise opaque. -/
structure AccountId where
  text : String
  nonempty : text ≠ ""
  short : text.utf8ByteSize ≤ 128
  visible : text.toList.all isVisible = true
  deriving DecidableEq

namespace AccountId

/-- Emptiness is judged first, then length, then characters. -/
def ofString (s : String) : Except ValueError AccountId :=
  if nonempty : s = "" then .error .emptyAccount
  else if short : s.utf8ByteSize ≤ 128 then
    if visible : s.toList.all isVisible = true then .ok ⟨s, nonempty, short, visible⟩
    else .error (.accountCharacters s)
  else .error .longAccount

instance : ToString AccountId := ⟨text⟩

@[simp] theorem ofString_text (a : AccountId) : ofString a.text = .ok a := by
  simp [ofString, a.nonempty, a.short, a.visible]

theorem text_of_ofString {s : String} {a : AccountId} (h : ofString s = .ok a) : a.text = s := by
  unfold ofString at h
  split at h
  · simp at h
  · split at h
    · split at h
      · simp only [Except.ok.injEq] at h
        rw [← h]
      · simp at h
    · simp at h

end AccountId

end Attestor
