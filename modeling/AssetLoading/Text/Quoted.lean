import AssetLoading.Text.CharacterRanges

/-! # Hexadecimal and quoted text

  Hexadecimal text is lower-case, most significant digit first.

  The diagnostic form of a text has double quotes around it, and an escape for
  each character that a reader could not tell from the page. The common
  controls have escapes of their own; any other character without a visible
  form, or that attaches to the one before it, is written by its code point.
-/

namespace AssetLoading.Text

/-- The lower-case digit of a number below sixteen. -/
def hexDigit (n : Nat) : Char :=
  if n < 10 then Char.ofNat (48 + n) else Char.ofNat (87 + n)

/-- `n` in lower-case hexadecimal, padded with zeros to `width` digits; of a
larger number the last `width` digits. -/
def hexPadded (width n : Nat) : String :=
  String.ofList ((List.range width).reverse.map fun i => hexDigit (n >>> (4 * i) % 16))

/-- `n` in lower-case hexadecimal without leading zeros. -/
def hex (n : Nat) : String :=
  hexPadded (Nat.log2 n / 4 + 1) n

/-- Two digits for each byte. -/
def hexBytes (bytes : List UInt8) : String :=
  String.join (bytes.map fun b => hexPadded 2 b.toNat)

/-- A character as it stands between the quotes. -/
def escapeChar (c : Char) : String :=
  match c with
  | '\x00' => "\\0"
  | '\t' => "\\t"
  | '\r' => "\\r"
  | '\n' => "\\n"
  | '"' => "\\\""
  | '\\' => "\\\\"
  | c =>
    if inRanges graphemeExtendRanges c.toNat || inRanges unprintableRanges c.toNat then
      "\\u\x7b" ++ hex c.toNat ++ "\x7d"
    else c.toString

/-- A text in double quotes. -/
def quoted (text : String) : String :=
  "\"" ++ String.join (text.toList.map escapeChar) ++ "\""

/-- A text that may be missing. -/
def quotedOption : Option String → String
  | none => "None"
  | some text => "Some(" ++ quoted text ++ ")"

end AssetLoading.Text
