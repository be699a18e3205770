/-! # Decoding UTF-8

  Bytes are read as UTF-8 without exception: no overlong forms, no surrogates,
  nothing above the last code point. A failure reports where the first bad
  sequence starts and how many of its bytes still looked right, or that the
  input ended inside a sequence.
-/

namespace AssetLoading.Text

/-- Why bytes are not UTF-8. -/
inductive Utf8Fault where
  /-- A sequence at `start` goes wrong after `length` bytes. -/
  | invalid (start length : Nat)
  /-- The bytes end inside the sequence at `start`. -/
  | incomplete (start : Nat)
deriving DecidableEq, Repr

/-- The diagnostic text of a fault. -/
def Utf8Fault.message : Utf8Fault → String
  | .invalid start length => s!"invalid utf-8 sequence of {length} bytes from index {start}"
  | .incomplete start => s!"incomplete utf-8 byte sequence from index {start}"

/-- `true` for the bytes `10xxxxxx`. -/
def isContinuation (b : UInt8) : Bool :=
  0x80 ≤ b && b ≤ 0xBF

/-- `true` if `second` may follow `first` in a sequence of three bytes. -/
def startsThree (first second : UInt8) : Bool :=
  if first = 0xE0 then 0xA0 ≤ second && second ≤ 0xBF
  else if first = 0xED then 0x80 ≤ second && second ≤ 0x9F
  else isContinuation second

/-- `true` if `second` may follow `first` in a sequence of four bytes. -/
def startsFour (first second : UInt8) : Bool :=
  if first = 0xF0 then 0x90 ≤ second && second ≤ 0xBF
  else if first = 0xF4 then 0x80 ≤ second && second ≤ 0x8F
  else isContinuation second

/-- The payload of a continuation byte. -/
def payload (b : UInt8) : Nat :=
  b.toNat % 64

/-- The characters of bytes that stand at offset `pos` of the whole input. -/
def decodeFrom (pos : Nat) : List UInt8 → Except Utf8Fault (List Char)
  | [] => .ok []
  | b0 :: rest =>
    if b0 < 0x80 then
      (decodeFrom (pos + 1) rest).map (Char.ofNat b0.toNat :: ·)
    else if 0xC2 ≤ b0 && b0 ≤ 0xDF then
      match rest with
      | [] => .error (.incomplete pos)
      | b1 :: rest =>
        if isContinuation b1 then
          (decodeFrom (pos + 2) rest).map
            (Char.ofNat (b0.toNat % 32 * 64 + payload b1) :: ·)
        else .error (.invalid pos 1)
    else if 0xE0 ≤ b0 && b0 ≤ 0xEF then
      match rest with
      | [] => .error (.incomplete pos)
      | b1 :: rest =>
        if startsThree b0 b1 then
          match rest with
          | [] => .error (.incomplete pos)
          | b2 :: rest =>
            if isContinuation b2 then
              (decodeFrom (pos + 3) rest).map
                (Char.ofNat ((b0.toNat % 16 * 64 + payload b1) * 64 + payload b2) :: ·)
            else .error (.invalid pos 2)
        else .error (.invalid pos 1)
    else if 0xF0 ≤ b0 && b0 ≤ 0xF4 then
      match rest with
      | [] => .error (.incomplete pos)
      | b1 :: rest =>
        if startsFour b0 b1 then
          match rest with
          | [] => .error (.incomplete pos)
          | b2 :: rest =>
            if isContinuation b2 then
              match rest with
              | [] => .error (.incomplete pos)
              | b3 :: rest =>
                if isContinuation b3 then
                  let high := (b0.toNat % 8 * 64 + payload b1) * 64 + payload b2
                  (decodeFrom (pos + 4) rest).map (Char.ofNat (high * 64 + payload b3) :: ·)
                else .error (.invalid pos 3)
            else .error (.invalid pos 2)
        else .error (.invalid pos 1)
    else .error (.invalid pos 1)

/-- The text that bytes spell. -/
def decodeUtf8 (bytes : List UInt8) : Except Utf8Fault String :=
  (decodeFrom 0 bytes).map String.ofList

end AssetLoading.Text
