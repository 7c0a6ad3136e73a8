import Mathlib.Data.List.Infix

namespace FixLoop
namespace Library
namespace Strings

/-!
# Operations on strings

A string is a sequence of code points.  White space and line boundaries are
those of Unicode.
-/

/-- `text.startswith(start)`. -/
def startsWith (start text : String) : Bool :=
  start.toList.isPrefixOf text.toList

def includesChars (part : List Char) : List Char -> Bool
  | [] => part.isEmpty
  | char :: rest => part.isPrefixOf (char :: rest) || includesChars part rest

/-- `part in text`. -/
def includes (part text : String) : Bool :=
  includesChars part.toList text.toList

/-- One of the parts is in the text. -/
def includesAny (parts : List String) (text : String) : Bool :=
  parts.any fun part => includes part text

/-- `text[:count]`. -/
def first (count : Nat) (text : String) : String :=
  String.ofList (text.toList.take count)

/-- `text.removeprefix(start)`. -/
def removePrefix (start text : String) : String :=
  if startsWith start text then String.ofList (text.toList.drop start.length) else text

/-- `char.isspace()`. -/
def isSpace (char : Char) : Bool :=
  let code := char.toNat
  (0x09 ≤ code && code ≤ 0x0d) || (0x1c ≤ code && code ≤ 0x20) || code == 0x85 || code == 0xa0 ||
    code == 0x1680 || (0x2000 ≤ code && code ≤ 0x200a) || code == 0x2028 || code == 0x2029 ||
    code == 0x202f || code == 0x205f || code == 0x3000

/-- `text.strip()`. -/
def strip (text : String) : String :=
  String.ofList ((text.toList.dropWhile isSpace).reverse.dropWhile isSpace).reverse

def isLineBoundary (char : Char) : Bool :=
  let code := char.toNat
  (0x0a ≤ code && code ≤ 0x0d) || (0x1c ≤ code && code ≤ 0x1e) || code == 0x85 ||
    code == 0x2028 || code == 0x2029

/-- The lines of a text, given the reversed line that has been begun. -/
def splitLinesFrom (line : List Char) : List Char -> List String
  | [] => if line.isEmpty then [] else [String.ofList line.reverse]
  | '\r' :: '\n' :: rest => String.ofList line.reverse :: splitLinesFrom [] rest
  | char :: rest =>
    if isLineBoundary char then String.ofList line.reverse :: splitLinesFrom [] rest
    else splitLinesFrom (char :: line) rest

/-- `text.splitlines()`. -/
def splitLines (text : String) : List String :=
  splitLinesFrom [] text.toList

/-- `"\n".join(parts)`. -/
def joinLines (parts : List String) : String :=
  "\n".intercalate parts

example : splitLines "a\r\nb\n\nc" = ["a", "b", "", "c"] := by decide +kernel

end Strings
end Library
end FixLoop

namespace FixLoop
namespace Library

/-!
# Text files

A file holds bytes.  Text is written as it is, in UTF-8; a file that is read
as text is decoded strictly, and every line end becomes a line feed.
-/

namespace TextFiles

/-- The equality of bytes, for digests that are the bytes themselves. -/
@[reducible] def bytesEqual : DecidableEq ByteArray := ByteArray.decEq

def encode (text : String) : ByteArray := text.toUTF8

/-- The universal newlines mode: a carriage return, with the line feed that
may follow it, is read as a line feed. -/
def universalNewlines : List Char -> List Char
  | [] => []
  | '\r' :: '\n' :: rest => '\n' :: universalNewlines rest
  | '\r' :: rest => '\n' :: universalNewlines rest
  | letter :: rest => letter :: universalNewlines rest

/-- None is a decoding error. -/
def readText (content : ByteArray) : Option String :=
  (String.fromUTF8? content).map fun text => String.ofList (universalNewlines text.toList)

theorem encode_injective {first second : String} (same : encode first = encode second) : first = second :=
  String.toByteArray_inj.mp same

theorem universalNewlines_free (text : List Char) : '\r' ∉ universalNewlines text := by
  fun_induction universalNewlines text with
  | case1 => exact List.not_mem_nil
  | case2 rest ih => exact fun member => (List.mem_cons.mp member).elim (fun same => by cases same) ih
  | case3 rest _ ih => exact fun member => (List.mem_cons.mp member).elim (fun same => by cases same) ih
  | case4 letter rest _ other ih =>
    exact fun member => (List.mem_cons.mp member).elim (fun same => other same.symm) ih

theorem universalNewlines_eq_self {text : List Char} : universalNewlines text = text <-> '\r' ∉ text := by
  refine ⟨fun same => same ▸ universalNewlines_free text, ?_⟩
  fun_induction universalNewlines text with
  | case1 => exact fun _ => rfl
  | case2 rest ih => exact fun free => absurd List.mem_cons_self free
  | case3 rest _ ih => exact fun free => absurd List.mem_cons_self free
  | case4 letter rest _ other ih =>
    exact fun free => congrArg (List.cons letter) (ih fun member => free (List.mem_cons_of_mem letter member))

theorem fromUTF8?_encode (text : String) : String.fromUTF8? (encode text) = some text :=
  dif_pos text.isValidUTF8

/-- What was written is read back exactly where it has no carriage return. -/
theorem readText_encode {text : String} : readText (encode text) = some text <-> '\r' ∉ text.toList := by
  rw [readText, fromUTF8?_encode, Option.map_some, Option.some.injEq, <- universalNewlines_eq_self]
  constructor
  · intro same
    have letters := congrArg String.toList same
    rwa [String.toList_ofList] at letters
  · intro same
    rw [same, String.ofList_toList]

theorem readText_encode_isSome (text : String) : ∃ read, readText (encode text) = some read := by
  rw [readText, fromUTF8?_encode]
  exact ⟨_, rfl⟩

end TextFiles

end Library
end FixLoop
