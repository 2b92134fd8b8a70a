/-!
Bytes as characters in the eight-bit encoding. A byte string is cut into pieces, each a character
or a longest run of bytes that no character starts with, so strict and lenient reading agree on
where a fault lies.
-/
namespace Conform.Text

/-- Why bytes are not characters. -/
inductive ByteFault
  | invalidStart
  | invalidContinuation
  | unexpectedEnd
  | truncated
  | outOfRange
  deriving DecidableEq

def ByteFault.text : ByteFault → String
  | .invalidStart => "invalid start byte"
  | .invalidContinuation => "invalid continuation byte"
  | .unexpectedEnd => "unexpected end of data"
  | .truncated => "truncated data"
  | .outOfRange => "code point not in range(0x110000)"

/-- A character, or a fault, and how many bytes follow its first. -/
inductive Piece
  | scalar (c : Char) (more : Nat)
  | fault (reason : ByteFault) (more : Nat)
  deriving DecidableEq

def Piece.more : Piece → Nat
  | .scalar _ n => n
  | .fault _ n => n

/-- Characters, or the start, reason and size of a fault. -/
abbrev Decoded := Except (Nat × ByteFault × Nat) (List Char)

def isContinuation (b : Nat) : Bool := 0x80 ≤ b && b < 0xc0

namespace Utf8

/-- Whether `b` may follow the lead byte, which rules out long forms, surrogates and what lies
beyond the last character. -/
def secondAllowed (lead b : Nat) : Bool :=
  isContinuation b &&
    (if lead = 0xe0 then 0xa0 ≤ b
      else if lead = 0xed then b < 0xa0
      else if lead = 0xf0 then 0x90 ≤ b
      else if lead = 0xf4 then b < 0x90
      else true)

/-- The piece at the front: lead byte and the bytes after it. -/
def piece (lead : Nat) (rest : List Nat) : Piece :=
  if lead < 0x80 then .scalar (Char.ofNat lead) 0
  else if lead < 0xc2 then .fault .invalidStart 0
  else if lead < 0xe0 then
    match rest with
    | [] => .fault .unexpectedEnd 0
    | b :: _ =>
      if isContinuation b then .scalar (Char.ofNat ((lead - 0xc0) * 0x40 + (b - 0x80))) 1
      else .fault .invalidContinuation 0
  else if lead < 0xf0 then
    match rest with
    | [] => .fault .unexpectedEnd 0
    | b :: rest =>
      if !secondAllowed lead b then .fault .invalidContinuation 0
      else match rest with
        | [] => .fault .unexpectedEnd 1
        | c :: _ =>
          if isContinuation c then
            .scalar (Char.ofNat ((lead - 0xe0) * 0x1000 + (b - 0x80) * 0x40 + (c - 0x80))) 2
          else .fault .invalidContinuation 1
  else if lead < 0xf5 then
    match rest with
    | [] => .fault .unexpectedEnd 0
    | b :: rest =>
      if !secondAllowed lead b then .fault .invalidContinuation 0
      else match rest with
        | [] => .fault .unexpectedEnd 1
        | c :: rest =>
          if !isContinuation c then .fault .invalidContinuation 1
          else match rest with
            | [] => .fault .unexpectedEnd 2
            | d :: _ =>
              if isContinuation d then
                .scalar (Char.ofNat ((lead - 0xf0) * 0x40000 + (b - 0x80) * 0x1000 +
                  (c - 0x80) * 0x40 + (d - 0x80))) 3
              else .fault .invalidContinuation 2
  else .fault .invalidStart 0

def pieces : List UInt8 → List Piece
  | [] => []
  | b :: rest =>
    let front := piece b.toNat ((rest.take 3).map UInt8.toNat)
    front :: pieces (rest.drop front.more)
termination_by bs => bs.length
decreasing_by
  rw [List.length_drop, List.length_cons]
  omega

/-- Every fault as one replacement character. -/
def decodeLenient (bs : List UInt8) : List Char :=
  (pieces bs).map fun
    | .scalar c _ => c
    | .fault .. => '\ufffd'

/-- The characters up to the first fault: where it starts, why, and how many bytes it has. -/
def decodePieces : List Piece → Nat → Decoded
  | [], _ => .ok []
  | .scalar c more :: ps, start => (decodePieces ps (start + more + 1)).map (c :: ·)
  | .fault reason more :: _, start => .error (start, reason, more + 1)

end Utf8

end Conform.Text
