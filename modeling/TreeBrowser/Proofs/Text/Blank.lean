import Mathlib.Data.List.DropRight
import TreeBrowser.Text.Blank

/-!
# Trimmed texts

Trimming leaves nothing to trim: what is left begins and ends with no blank.
-/

namespace TreeBrowser.Text

theorem trimChars_eq (cs : List Char) :
    trimChars cs = (cs.dropWhile isBlank).rdropWhile isBlank :=
  rfl

theorem dropWhile_rdropWhile {p : Char → Bool} {cs : List Char} (h : cs.dropWhile p = cs) :
    (cs.rdropWhile p).dropWhile p = cs.rdropWhile p := by
  rw [List.dropWhile_eq_self_iff] at h ⊢
  intro hpos
  have hpre := List.rdropWhile_prefix p cs
  rw [hpre.getElem hpos]
  exact h (Nat.lt_of_lt_of_le hpos hpre.length_le)

theorem trimChars_trimChars (cs : List Char) : trimChars (trimChars cs) = trimChars cs := by
  have hfront := List.dropWhile_idempotent isBlank cs
  rw [trimChars_eq cs, trimChars_eq, dropWhile_rdropWhile hfront, List.rdropWhile_idempotent]

theorem trim_trim (text : String) : trim (trim text) = trim text := by
  rw [trim, trim, String.toList_ofList, trimChars_trimChars]

end TreeBrowser.Text
