import CallSite.Decimal.Read

/-!
# Numerals in text

How a text is read as an integer or as a double. First the text is brought to ASCII
(`asciiNumeral?`): a blank character beyond ASCII becomes a space, a decimal digit of any
script becomes its ASCII digit, and any other character from DEL up makes the text no numeral.
Then:

* an integer (`readInteger?`) is an optional sign and digits, single underscores allowed
  between two digits, with ASCII blanks around; more than `maxIntegerDigits` digits are
  refused;
* a double (`readDoubleText?`) may have single underscores anywhere between two digits of
  the whole text; they are dropped, the ASCII blanks around are cut off, and the rest must be
  a literal of `readDouble?`.

The characters that the first step knows are kept as tables of code points: the blank
characters (`Text.isBlank`, with the narrower ASCII blanks `Text.isAsciiBlank`) and the zero
of every run of ten decimal digits (`Text.digitValue?`).
-/

namespace CallSite

namespace Text

/-! ## Blank characters

Two notions of white space. `isBlank` is the Unicode one used when a numeral is read: a
character is blank when it is a space separator (general category Zs) or has the
bidirectional class of a paragraph, segment or white-space separator, which takes in the ASCII
controls tab to carriage return and the four information separators U+001C to U+001F.
`isAsciiBlank` is the narrower set that may surround the digits of a numeral: space, tab, line
feed, vertical tab, form feed and carriage return.
-/

/-- Every blank character, in increasing order. -/
def blankChars : List Nat := [
  0x9, 0xA, 0xB, 0xC, 0xD, 0x1C, 0x1D, 0x1E,
  0x1F, 0x20, 0x85, 0xA0, 0x1680, 0x2000, 0x2001, 0x2002,
  0x2003, 0x2004, 0x2005, 0x2006, 0x2007, 0x2008, 0x2009, 0x200A,
  0x2028, 0x2029, 0x202F, 0x205F, 0x3000]

/-- Whether a character is blank in the Unicode sense described above. -/
def isBlank (c : Char) : Bool := blankChars.contains c.toNat

/-- Whether a character is one of the six ASCII blanks. -/
def isAsciiBlank (c : Char) : Bool :=
  c = ' ' || c = '\t' || c = '\n' || c = '\x0b' || c = '\x0c' || c = '\r'

theorem isBlank_of_isAsciiBlank {c : Char} (h : isAsciiBlank c = true) : isBlank c = true := by
  simp only [isAsciiBlank, Bool.or_eq_true, decide_eq_true_eq] at h
  rcases h with ((((h | h) | h) | h) | h) | h <;> subst h <;> decide

example : isBlank '\u3000' = true ∧ isBlank '\x1c' = true ∧ isBlank '\u200b' = false := by
  decide

/-! ## Decimal digits of every script

A character is a decimal digit when it belongs to one of the runs of ten consecutive
characters, zero to nine, that Unicode marks as decimal digits (general category Nd); its value
is its distance from the zero of its run. The table lists the zero of every run, in order.
-/

/-- The first character, the zero, of every run of ten decimal digits. -/
def digitZeros : List Nat := [
  0x30, 0x660, 0x6F0, 0x7C0, 0x966, 0x9E6, 0xA66, 0xAE6,
  0xB66, 0xBE6, 0xC66, 0xCE6, 0xD66, 0xDE6, 0xE50, 0xED0,
  0xF20, 0x1040, 0x1090, 0x17E0, 0x1810, 0x1946, 0x19D0, 0x1A80,
  0x1A90, 0x1B50, 0x1BB0, 0x1C40, 0x1C50, 0xA620, 0xA8D0, 0xA900,
  0xA9D0, 0xA9F0, 0xAA50, 0xABF0, 0xFF10, 0x104A0, 0x10D30, 0x11066,
  0x110F0, 0x11136, 0x111D0, 0x112F0, 0x11450, 0x114D0, 0x11650, 0x116C0,
  0x11730, 0x118E0, 0x11950, 0x11C50, 0x11D50, 0x11DA0, 0x16A60, 0x16AC0,
  0x16B50, 0x1D7CE, 0x1D7D8, 0x1D7E2, 0x1D7EC, 0x1D7F6, 0x1E140, 0x1E2F0,
  0x1E950, 0x1FBF0]

/-- The value of a decimal digit of any script, or nothing for another character. -/
def digitValue? (c : Char) : Option Nat :=
  (digitZeros.find? fun z => z ≤ c.toNat && c.toNat < z + 10).map (c.toNat - ·)

example : digitValue? '7' = some 7 ∧ digitValue? '٣' = some 3 ∧ digitValue? 'x' = none := by
  decide

theorem digitValue?_lt_ten {c : Char} {d : Nat} (h : digitValue? c = some d) : d < 10 := by
  unfold digitValue? at h
  cases hz : digitZeros.find? (fun z => z ≤ c.toNat && c.toNat < z + 10) with
  | none => simp [hz] at h
  | some z =>
    simp only [hz, Option.map_some, Option.some.injEq] at h
    have := List.find?_some hz
    simp only [Bool.and_eq_true, decide_eq_true_eq] at this
    omega

/-! ## Numerals -/

/-- The ASCII form of a numeral, or nothing when a character beyond ASCII is neither blank
nor a decimal digit. -/
def asciiNumeral? (s : String) : Option (List Char) :=
  s.toList.mapM fun c =>
    if c.toNat < 127 then some c
    else if isBlank c then some ' '
    else (digitValue? c).map fun d => Char.ofNat ('0'.toNat + d)

/-- `cs` without the ASCII blanks at either end. -/
def trimAsciiBlanks (cs : List Char) : List Char :=
  ((cs.dropWhile isAsciiBlank).reverse.dropWhile isAsciiBlank).reverse

end Text

/-- The most digits an integer may have to be read or written. -/
def maxIntegerDigits : Nat := 4300

/-- Whether `cs` is one or more ASCII digits with single underscores between two digits. -/
def isDigitGroups : List Char → Bool
  | [] => false
  | [c] => c.isDigit
  | c :: '_' :: rest => c.isDigit && isDigitGroups rest
  | c :: rest => c.isDigit && isDigitGroups rest

example : isDigitGroups "1_000".toList = true ∧ isDigitGroups "1__0".toList = false ∧
    isDigitGroups "1_".toList = false ∧ isDigitGroups "_1".toList = false := by
  decide

/-- The integer that a text stands for: ASCII blanks, an optional sign, digits with single
underscores between them, ASCII blanks; nothing for any other text. -/
def readInteger? (s : String) : Option Int := do
  let cs ← Text.asciiNumeral? s
  let (neg, body) := splitSign (Text.trimAsciiBlanks cs)
  if !isDigitGroups body then none
  else
    let ds := body.filter (· != '_')
    if maxIntegerDigits < ds.length then none
    else
      let n := digitsValue ds
      some (if neg then -(n : Int) else n)

/-- Whether every underscore of `cs` stands between two ASCII digits, given the character
before `cs` (if any). -/
def underscoresBetweenDigits : Option Char → List Char → Bool
  | _, [] => true
  | prev, '_' :: rest =>
    (prev.map Char.isDigit).getD false &&
      (match rest with
       | c :: _ => c.isDigit
       | [] => false) &&
      underscoresBetweenDigits (some '_') rest
  | _, c :: rest => underscoresBetweenDigits (some c) rest

/-- The double that a text stands for: underscores only between two digits, dropped; ASCII
blanks around; a literal of `readDouble?` in between. -/
def readDoubleText? (s : String) : Option Binary64 := do
  let cs ← Text.asciiNumeral? s
  if !underscoresBetweenDigits none cs then none
  else readDouble? (Text.trimAsciiBlanks (cs.filter (· != '_')))

example : readInteger? "  -0042 " = some (-42) ∧ readInteger? "1_000" = some 1000 ∧
    readInteger? "١٢" = some 12 ∧ readInteger? "1.0" = none ∧ readInteger? "" = none ∧
    readInteger? "+ 1" = none := by
  decide +kernel

example : readDoubleText? " 1_0.5 " = some ⟨0x4025000000000000⟩ ∧
    readDoubleText? "1_.5" = none ∧ readDoubleText? "　nan" = some Binary64.nan := by
  decide +kernel

end CallSite
