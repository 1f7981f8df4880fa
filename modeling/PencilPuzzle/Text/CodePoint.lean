/-!
# Code points

Every number below 0x110000 is a code point. Most of them are characters; the surrogates between
U+D800 and U+DFFF are not, yet may be written into a text by their number.
-/

namespace PencilPuzzle.Text

abbrev CodePoint := Fin 0x110000

def codePoint (c : Char) : CodePoint :=
  ⟨c.toNat, by
    rcases c.valid with low | high
    · exact Nat.lt_trans low (by decide)
    · exact high.2⟩

theorem codePoint_injective {a b : Char} (h : codePoint a = codePoint b) : a = b := by
  have same : a.val.toNat = b.val.toNat := Fin.mk.inj h
  exact Char.ext (UInt32.toNat_inj.mp same)

end PencilPuzzle.Text
