import CompilerReports.Text.Hex

/-! Percent-encoded text: each escape, a percent sign and two hexadecimal digits, stands for one
octet, every other character for the octets of its UTF-8 form. A text is decoded when its
octets together are the UTF-8 form of some text.
-/

namespace CompilerReports.Text.Percent

/-- The octet that two hexadecimal digits write. -/
def octet? (high low : Char) : Option UInt8 :=
  match Hex.value? high, Hex.value? low with
  | some h, some l => some (UInt8.ofNat (16 * h + l))
  | _, _ => none

/-- The octets a text stands for, unless an escape lacks its two digits. -/
def octets? : List Char → Option (List UInt8)
  | [] => some []
  | c :: rest =>
      if c = '%' then
        match rest with
        | high :: low :: more =>
            match octet? high low, octets? more with
            | some octet, some octets => some (octet :: octets)
            | _, _ => none
        | _ => none
      else
        (octets? rest).map (String.utf8EncodeChar c ++ ·)

/-- The text that a percent-encoded text stands for, unless an escape is malformed or the
octets are not well-formed UTF-8.
-/
def decode? (text : List Char) : Option String :=
  (octets? text).bind fun octets => String.fromUTF8? octets.toByteArray

end CompilerReports.Text.Percent
