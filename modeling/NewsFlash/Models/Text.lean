import NewsFlash.Library.Trim

/-!
# Texts

Foundation's white space, the trimming that every screen with text fields does before it uses
them, the lower case of a title, and the equality of strings, which is not that of their
characters.
-/

namespace NewsFlash.Models

open NewsFlash.Library

/-- `CharacterSet.whitespacesAndNewlines`: the separators of Unicode, the controls from the tab
to the carriage return, and the next line. -/
def whitespacesAndNewlines (c : Char) : Bool :=
  (0x9 ≤ c.toNat && c.toNat ≤ 0xd) || (0x2000 ≤ c.toNat && c.toNat ≤ 0x200a) ||
    [0x20, 0x85, 0xa0, 0x1680, 0x2028, 0x2029, 0x202f, 0x205f, 0x3000].contains c.toNat

/-- `trimmingCharacters(in: .whitespacesAndNewlines)` -/
def trimmingCharacters (text : String) : String :=
  String.ofList (trim whitespacesAndNewlines text.toList)

/-- `lowercased()` of a text of ASCII characters. -/
def lowercased (text : String) : String := String.ofList (text.toList.map Char.toLower)

/-! ## Equality -/

/-- The canonical decomposition of a string, which is the same for an accented letter and for
the letter followed by its accent. -/
class Canonical where
  decomposed : String → String

/-- Strings that are all decomposed, as those of ASCII characters are, are equal only if they are
the same. Where strings are compared by `==` alone, each may be taken for its decomposition. -/
instance (priority := low) decomposedAlready : Canonical := ⟨id⟩

/-- `==` of two strings, by which the app compares. The server compares their bytes. -/
def equal [Canonical] (text other : String) : Bool :=
  Canonical.decomposed text == Canonical.decomposed other

@[simp] theorem equal_self [Canonical] (text : String) : equal text text = true :=
  beq_self_eq_true _

theorem equal_of_eq [Canonical] {text other : String} (h : text = other) :
    equal text other = true := h ▸ equal_self text

@[simp] theorem equal_decomposed (text other : String) :
    @equal decomposedAlready text other = (text == other) := rfl

theorem all_not_beq (text : Option String) (other : String) :
    (text.all fun t => !(t == other)) = (text != some other) := by
  cases text <;> rfl

end NewsFlash.Models
