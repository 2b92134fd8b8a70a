import Conform.Text.Utf8

/-!
Reading bytes as text, strictly or by the encoding that the first bytes give away.
-/
namespace Conform.Text

/-- Bytes that could not be read: under which encoding, where, and why. -/
structure DecodeError where
  encoding : String
  bytes : List UInt8
  start : Nat
  size : Nat
  reason : ByteFault
  deriving DecidableEq

def DecodeError.message (e : DecodeError) : String :=
  let place :=
    if e.size = 1 then
      let byte := ((e.bytes[e.start]?).getD 0).toNat
      let digits := Nat.toDigits 16 byte
      let digits := if digits.length < 2 then '0' :: digits else digits
      s!"byte 0x{String.ofList digits} in position {e.start}"
    else s!"bytes in position {e.start}-{e.start + e.size - 1}"
  s!"'{e.encoding}' codec can't decode {place}: {e.reason.text}"

def decodeUtf8 (bs : List UInt8) : Except DecodeError (List Char) :=
  match Utf8.decodePieces (Utf8.pieces bs) 0 with
  | .ok cs => .ok cs
  | .error (start, reason, size) => .error ⟨"utf-8", bs, start, size, reason⟩

/-- The order of bytes in a unit of several. -/
inductive ByteOrder
  | little
  | big
  deriving DecidableEq

def ByteOrder.suffix : ByteOrder → String
  | .little => "le"
  | .big => "be"

def pair (order : ByteOrder) (a b : UInt8) : Nat :=
  match order with
  | .little => b.toNat * 0x100 + a.toNat
  | .big => a.toNat * 0x100 + b.toNat

/-- The character of a code. Half of a surrogate pair is none and is replaced. -/
def charOf (code : Nat) : Char :=
  if 0xd800 ≤ code && code < 0xe000 then '\ufffd' else Char.ofNat code

/-- Two-byte units; a high surrogate joins the low one after it. -/
def decodeUnits16 (order : ByteOrder) : List UInt8 → Nat → Decoded
  | [], _ => .ok []
  | [_], p => .error (p, .truncated, 1)
  | a :: b :: c :: d :: rest, p =>
    let high := pair order a b
    let low := pair order c d
    if 0xd800 ≤ high && high < 0xdc00 && 0xdc00 ≤ low && low < 0xe000 then
      (decodeUnits16 order rest (p + 4)).map
        (Char.ofNat (0x10000 + (high - 0xd800) * 0x400 + (low - 0xdc00)) :: ·)
    else (decodeUnits16 order (c :: d :: rest) (p + 2)).map (charOf high :: ·)
  | a :: b :: rest, p => (decodeUnits16 order rest (p + 2)).map (charOf (pair order a b) :: ·)

/-- Four-byte units. -/
def decodeUnits32 (order : ByteOrder) : List UInt8 → Nat → Decoded
  | [], _ => .ok []
  | a :: b :: c :: d :: rest, p =>
    let code := match order with
      | .little => pair .little c d * 0x10000 + pair .little a b
      | .big => pair .big a b * 0x10000 + pair .big c d
    if code < 0x110000 then (decodeUnits32 order rest (p + 4)).map (charOf code :: ·)
    else .error (p, .outOfRange, 4)
  | rest, p => .error (p, .truncated, rest.length)

/-- The encodings that data may come in. -/
inductive Encoding
  | utf8
  | utf8Marked
  | utf16 (order : ByteOrder)
  | utf16Marked (order : ByteOrder)
  | utf32 (order : ByteOrder)
  | utf32Marked (order : ByteOrder)
  deriving DecidableEq

/-- Guesses from a byte order mark, or from where the zero bytes of a first ASCII character lie. -/
def detect (bs : List UInt8) : Encoding :=
  match bs with
  | 0x00 :: 0x00 :: 0xfe :: 0xff :: _ => .utf32Marked .big
  | 0xff :: 0xfe :: 0x00 :: 0x00 :: _ => .utf32Marked .little
  | 0xfe :: 0xff :: _ => .utf16Marked .big
  | 0xff :: 0xfe :: _ => .utf16Marked .little
  | 0xef :: 0xbb :: 0xbf :: _ => .utf8Marked
  | a :: b :: c :: d :: _ =>
    if a = 0 then (if b = 0 then .utf32 .big else .utf16 .big)
    else if b = 0 then (if c = 0 && d = 0 then .utf32 .little else .utf16 .little)
    else .utf8
  | [a, b] => if a = 0 then .utf16 .big else if b = 0 then .utf16 .little else .utf8
  | _ => .utf8

/-- Reads by the detected encoding, without its mark. -/
def decodeDetected (bs : List UInt8) : Except DecodeError (List Char) :=
  let wide (name : String) (order : ByteOrder) (decoded : Decoded) :
      Except DecodeError (List Char) :=
    match decoded with
    | .ok cs => .ok cs
    | .error (start, reason, size) => .error ⟨name ++ order.suffix, bs, start, size, reason⟩
  match detect bs with
  | .utf8 => decodeUtf8 bs
  | .utf8Marked => decodeUtf8 (bs.drop 3)
  | .utf16 order => wide "utf-16-" order (decodeUnits16 order bs 0)
  | .utf16Marked order => wide "utf-16-" order (decodeUnits16 order (bs.drop 2) 2)
  | .utf32 order => wide "utf-32-" order (decodeUnits32 order bs 0)
  | .utf32Marked order => wide "utf-32-" order (decodeUnits32 order (bs.drop 4) 4)

end Conform.Text
