/-!
# Text as bytes

`encode` writes a text in UTF-8. Reading goes character by character: `scan` reads the character at
the front or names what is wrong there and how many bytes the flaw covers, the longest beginning of a
character that can no longer be completed. `decode` refuses a text with a flaw and says where it lies;
`decodeLossy` puts one replacement character for each flaw.
-/

namespace Lintel.Text

/-- A sequence of bytes. -/
abbrev Bytes := List UInt8

/-- The bytes of one character. -/
def encodeChar (c : Char) : Bytes :=
  let n := c.toNat
  let tail (shift : Nat) : UInt8 := UInt8.ofNat (0x80 + n / Nat.pow 2 shift % 64)
  if n < 0x80 then [UInt8.ofNat n]
  else if n < 0x800 then [UInt8.ofNat (0xc0 + n / 64), tail 0]
  else if n < 0x10000 then [UInt8.ofNat (0xe0 + n / 4096), tail 6, tail 0]
  else [UInt8.ofNat (0xf0 + n / 262144), tail 12, tail 6, tail 0]

/-- The text in UTF-8. -/
def encodeChars (cs : List Char) : Bytes := cs.flatMap encodeChar

/-- The text in UTF-8. -/
def encode (s : String) : Bytes := encodeChars s.toList

/-- What can be wrong where a character should start. -/
inductive Flaw where
  | start
  | continuation
  | cutOff
  deriving DecidableEq, Repr

/-- What stands at the front: a character or a flaw, and the bytes after the first that it covers. -/
inductive Scan where
  | char (c : Char) (more : Nat)
  | flaw (kind : Flaw) (more : Nat)
  deriving DecidableEq, Repr

/-- The byte continues a character. -/
def isTail (b : UInt8) : Bool := 0x80 ≤ b && b < 0xc0

/-- The low six bits of a continuing byte. -/
def tailBits (b : UInt8) : Nat := b.toNat % 64

/-- The byte may come second after `lead`: no overlong form, no surrogate, nothing above the last
code point. -/
def isSecond (lead b : UInt8) : Bool :=
  isTail b &&
    (if lead == 0xe0 then 0xa0 ≤ b
     else if lead == 0xed then b < 0xa0
     else if lead == 0xf0 then 0x90 ≤ b
     else if lead == 0xf4 then b < 0x90
     else true)

/-- Reads the character at the front of `lead :: rest`. -/
def scan (lead : UInt8) (rest : Bytes) : Scan :=
  if lead < 0x80 then .char (Char.ofNat lead.toNat) 0
  else if lead < 0xc2 || 0xf5 ≤ lead then .flaw .start 0
  else
    match rest with
    | [] => .flaw .cutOff 0
    | second :: rest =>
      if !isSecond lead second then .flaw .continuation 0
      else if lead < 0xe0 then .char (Char.ofNat (lead.toNat % 32 * 64 + tailBits second)) 1
      else
        match rest with
        | [] => .flaw .cutOff 1
        | third :: rest =>
          if !isTail third then .flaw .continuation 1
          else if lead < 0xf0 then
            .char (Char.ofNat (lead.toNat % 16 * 4096 + tailBits second * 64 + tailBits third)) 2
          else
            match rest with
            | [] => .flaw .cutOff 2
            | fourth :: _ =>
              if !isTail fourth then .flaw .continuation 2
              else
                .char (Char.ofNat (lead.toNat % 8 * 262144 + tailBits second * 4096
                  + tailBits third * 64 + tailBits fourth)) 3

/-- Where a text is not UTF-8: the first byte, its place, the number of bytes, and the flaw. -/
structure Undecodable where
  byte : UInt8
  start : Nat
  count : Nat
  kind : Flaw
  deriving DecidableEq, Repr

/-- Reads a text in UTF-8 that starts at place `start`. -/
def decodeFrom (start : Nat) : Bytes → Except Undecodable (List Char)
  | [] => .ok []
  | lead :: rest =>
    match scan lead rest with
    | .char c more => (decodeFrom (start + more + 1) (rest.drop more)).map (c :: ·)
    | .flaw kind more => .error ⟨lead, start, more + 1, kind⟩
termination_by bytes => bytes.length
decreasing_by simp only [List.length_cons, List.length_drop]; omega

/-- Reads a text in UTF-8. -/
def decode (bytes : Bytes) : Except Undecodable (List Char) := decodeFrom 0 bytes

/-- Reads a text in UTF-8, with the replacement character in the place of each flaw. -/
def decodeLossy : Bytes → List Char
  | [] => []
  | lead :: rest =>
    match scan lead rest with
    | .char c more => c :: decodeLossy (rest.drop more)
    | .flaw _ more => '\uFFFD' :: decodeLossy (rest.drop more)
termination_by bytes => bytes.length
decreasing_by all_goals (simp only [List.length_cons, List.length_drop]; omega)

end Lintel.Text
