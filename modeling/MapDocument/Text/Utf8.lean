/-!
# Text — UTF-8

Text as bytes and back. A byte sequence is read character by character;
where no character can start or go on, `decode` says where that character
began and how many bytes had to be given up, or that the input ended
inside it.
-/

namespace MapDocument

/-- A sequence of bytes. -/
abbrev Bytes := List UInt8

namespace Utf8

/-- Why bytes are not UTF-8. -/
structure Error where
  /-- Bytes before the offending character. -/
  position : Nat
  /-- Bytes that cannot be part of any character; none if the input ended too early. -/
  length? : Option Nat
deriving DecidableEq, Repr

/-- Bytes of a text. -/
def encode (s : String) : Bytes := s.toList.flatMap String.utf8EncodeChar

/-- The bytes that may come second, after the given first byte of three or four. -/
def secondBytes (first : UInt8) : UInt8 × UInt8 :=
  if first = 0xe0 then (0xa0, 0xbf)
  else if first = 0xed then (0x80, 0x9f)
  else if first = 0xf0 then (0x90, 0xbf)
  else if first = 0xf4 then (0x80, 0x8f)
  else (0x80, 0xbf)

/-- A byte that may come second after `first`. -/
def isSecond (first b : UInt8) : Bool := (secondBytes first).1 ≤ b && b ≤ (secondBytes first).2

/-- A byte that carries on a character. -/
def isTail (b : UInt8) : Bool := 0x80 ≤ b && b ≤ 0xbf

/-- Payload of a byte that carries on a character. -/
def payload (b : UInt8) : Nat := b.toNat % 64

/-- Reads characters, the first of which begins at `position`. -/
def decodeFrom (position : Nat) : Bytes → Except Error (List Char)
  | [] => .ok []
  | a :: rest =>
    if a < 0x80 then do
      return Char.ofNat a.toNat :: (← decodeFrom (position + 1) rest)
    else if a < 0xc2 || 0xf4 < a then
      .error ⟨position, some 1⟩
    else match rest with
    | [] => .error ⟨position, none⟩
    | b :: rest =>
      if !isSecond a b then .error ⟨position, some 1⟩
      else if a < 0xe0 then do
        let c := Char.ofNat (a.toNat % 32 * 64 + payload b)
        return c :: (← decodeFrom (position + 2) rest)
      else match rest with
      | [] => .error ⟨position, none⟩
      | c :: rest =>
        if !isTail c then .error ⟨position, some 2⟩
        else if a < 0xf0 then do
          let c := Char.ofNat ((a.toNat % 16 * 64 + payload b) * 64 + payload c)
          return c :: (← decodeFrom (position + 3) rest)
        else match rest with
        | [] => .error ⟨position, none⟩
        | d :: rest =>
          if !isTail d then .error ⟨position, some 3⟩
          else do
            let c := Char.ofNat (((a.toNat % 8 * 64 + payload b) * 64 + payload c) * 64 + payload d)
            return c :: (← decodeFrom (position + 4) rest)

/-- Text of bytes. -/
def decode (bytes : Bytes) : Except Error String := String.ofList <$> decodeFrom 0 bytes

/-- Text of bytes, if they are UTF-8. -/
def decode? (bytes : Bytes) : Option String := (decode bytes).toOption

/-- The wording of a refusal. -/
def Error.message (e : Error) : String :=
  match e.length? with
  | some n => s!"invalid utf-8 sequence of {n} bytes from index {e.position}"
  | none => s!"incomplete utf-8 byte sequence from index {e.position}"

end Utf8

end MapDocument
