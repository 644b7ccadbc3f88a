/-! The 16 bit code units of a text. A character from 2 ^ 16 on is written with two units, the
halves of a surrogate pair; every other character is one unit, and no character is a half.
-/

namespace CompilerReports.Text

def isHighSurrogate (unit : Nat) : Bool := decide (0xD800 ≤ unit) && decide (unit < 0xDC00)

def isLowSurrogate (unit : Nat) : Bool := decide (0xDC00 ≤ unit) && decide (unit < 0xE000)

def pairChar (high low : Nat) : Char :=
  Char.ofNat (0x10000 + 0x400 * (high - 0xD800) + (low - 0xDC00))

def unitsOfChar (c : Char) : List Nat :=
  if c.toNat < 0x10000 then
    [c.toNat]
  else
    [0xD800 + (c.toNat - 0x10000) / 0x400, 0xDC00 + (c.toNat - 0x10000) % 0x400]

def unitsOf (text : List Char) : List Nat := text.flatMap unitsOfChar

/-- The text of units, unless a half of a surrogate pair stands alone. -/
def ofUnits? : List Nat → Option (List Char)
  | [] => some []
  | unit :: rest =>
      if isHighSurrogate unit then
        match rest with
        | low :: more =>
            if isLowSurrogate low then (ofUnits? more).map (pairChar unit low :: ·) else none
        | [] => none
      else if isLowSurrogate unit then
        none
      else
        (ofUnits? rest).map (Char.ofNat unit :: ·)

/-- The character that is shown for a half of a surrogate pair that stands alone. -/
def replacement : Char := '\ufffd'

/-- The text of units, with the replacement character for every half that stands alone. -/
def ofUnits : List Nat → List Char
  | [] => []
  | unit :: rest =>
      if isHighSurrogate unit then
        match rest with
        | low :: more =>
            if isLowSurrogate low then
              pairChar unit low :: ofUnits more
            else
              replacement :: ofUnits (low :: more)
        | [] => [replacement]
      else if isLowSurrogate unit then
        replacement :: ofUnits rest
      else
        Char.ofNat unit :: ofUnits rest

end CompilerReports.Text
