import GoIdiom.Text.Quoted

/-!
# Texts as bytes

Characters are encoded in UTF-8 by one to four bytes. Decoding takes the shortest form only, no
surrogates and nothing beyond the last code point, and names the first place that breaks these rules.
Line breaks of a decoded text are line feeds.
-/

namespace GoIdiom.Text

/-- What is wrong with bytes that stand for no character. -/
inductive EncodingCause where
  | startByte
  | continuationByte
  | endOfData
deriving DecidableEq, Repr

/-- The wording of a cause. -/
def EncodingCause.message : EncodingCause → String
  | startByte => "invalid start byte"
  | continuationByte => "invalid continuation byte"
  | endOfData => "unexpected end of data"

/-- The first bytes that stand for no character: where they begin, and how many there are. -/
structure EncodingFault where
  cause : EncodingCause
  first : UInt8
  start : Nat
  count : Nat
deriving DecidableEq, Repr

/-- The wording of a fault. -/
def EncodingFault.message (f : EncodingFault) : String :=
  "'utf-8' codec can't decode " ++
    (if f.count == 1 then
      "byte 0x" ++ String.ofList (hexPadded 2 f.first.toNat) ++ " in position " ++ toString f.start
      else "bytes in position " ++ toString f.start ++ "-" ++ toString (f.start + f.count - 1)) ++
    ": " ++ f.cause.message

/-- What the first byte of a character tells: how many bytes follow, the bounds of the first of them,
and the bits that the byte itself contributes. -/
structure LeadByte where
  more : Nat
  low : Nat
  high : Nat
  bits : Nat
deriving DecidableEq, Repr

namespace LeadByte

/-- What a first byte tells, if it can be one. -/
def ofByte? (byte : UInt8) : Option LeadByte :=
  let b := byte.toNat
  if b < 0x80 then some ⟨0, 0x80, 0xBF, b⟩
  else if b < 0xC2 then none
  else if b < 0xE0 then some ⟨1, 0x80, 0xBF, b - 0xC0⟩
  else if b < 0xF0 then some ⟨2, if b = 0xE0 then 0xA0 else 0x80, if b = 0xED then 0x9F else 0xBF, b - 0xE0⟩
  else if b < 0xF5 then some ⟨3, if b = 0xF0 then 0x90 else 0x80, if b = 0xF4 then 0x8F else 0xBF, b - 0xF0⟩
  else none

end LeadByte

/-- The code point that the bytes after a first one complete, or what is wrong and how many bytes are
concerned. The next byte has to be within the bounds. -/
def codePoint (low high : Nat) (seen bits : Nat) : Nat → List UInt8 → Except (EncodingCause × Nat) Nat
  | 0, _ => .ok bits
  | _ + 1, [] => .error (.endOfData, seen)
  | more + 1, b :: rest =>
    if low ≤ b.toNat && b.toNat ≤ high then
      codePoint 0x80 0xBF (seen + 1) (bits * 64 + (b.toNat - 0x80)) more rest
    else .error (.continuationByte, seen)

/-- The characters that bytes stand for; the position is that of the first byte. -/
def decodeFrom (position : Nat) : List UInt8 → Except EncodingFault (List Char)
  | [] => .ok []
  | b :: rest =>
    match LeadByte.ofByte? b with
    | none => .error ⟨.startByte, b, position, 1⟩
    | some lead =>
      match codePoint lead.low lead.high 1 lead.bits lead.more rest with
      | .error (cause, count) => .error ⟨cause, b, position, count⟩
      | .ok point =>
        (decodeFrom (position + 1 + lead.more) (rest.drop lead.more)).map (Char.ofNat point :: ·)
termination_by bytes => bytes.length
decreasing_by simp only [List.length_drop, List.length_cons]; omega

/-- Line breaks of every kind as line feeds. -/
def unifyLineBreaks : List Char → List Char
  | '\r' :: '\n' :: rest => '\n' :: unifyLineBreaks rest
  | '\r' :: rest => '\n' :: unifyLineBreaks rest
  | c :: rest => c :: unifyLineBreaks rest
  | [] => []

/-- The text that bytes stand for, with its line breaks unified. -/
def ofBytes (bytes : List UInt8) : Except EncodingFault String :=
  (decodeFrom 0 bytes).map fun cs => String.ofList (unifyLineBreaks cs)

end GoIdiom.Text
