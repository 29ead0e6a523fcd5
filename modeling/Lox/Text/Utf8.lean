import Lox.Text.Quoted

/-!
Text from octets in UTF-8. Octets that are not well formed are refused, with the first flaw among
them and where it is.
-/

set_option autoImplicit false

namespace Lox.Text.Utf8

/-- What is wrong with octets that are refused. -/
inductive Flaw where
  /-- An octet that begins no character. -/
  | start
  /-- An octet that does not continue the character begun before it. -/
  | continuation
  /-- The octets end within a character. -/
  | ending
  deriving DecidableEq

def Flaw.message : Flaw → String
  | .start => "invalid start byte"
  | .continuation => "invalid continuation byte"
  | .ending => "unexpected end of data"

/-- A flaw, with the octets of the character it spoils and the position of their first. -/
structure Error where
  flaw : Flaw
  position : Nat
  octets : List UInt8

def Error.message (error : Error) : String :=
  let number (value : Nat) := String.ofList (Nat.toDigits 10 value)
  let place := match error.octets with
    | [octet] =>
      "byte 0x" ++ .ofList (hexadecimal 2 octet.toNat) ++ " in position " ++ number error.position
    | octets =>
      "bytes in position " ++ number error.position ++ "-"
        ++ number (error.position + octets.length - 1)
  "'utf-8' codec can't decode " ++ place ++ ": " ++ error.flaw.message

/-- A character of which some octets are read. -/
structure Part where
  position : Nat
  octets : List UInt8
  /-- The number made of the bits read so far. -/
  code : Nat
  /-- The ranges of the octets that are still to come. -/
  wanted : List (UInt8 × UInt8)

/-- The part of a character that its first octet makes, if one can begin with it. The range of
the second octet keeps out overlong forms, surrogates and numbers beyond the last character. -/
def Part.begin? (position : Nat) (octet : UInt8) : Option Part :=
  if octet < 0x80 then some ⟨position, [octet], octet.toNat, []⟩
  else if octet < 0xc2 then none
  else if octet < 0xe0 then some ⟨position, [octet], octet.toNat - 0xc0, [(0x80, 0xbf)]⟩
  else if octet < 0xf0 then
    let low := if octet = 0xe0 then 0xa0 else 0x80
    let high := if octet = 0xed then 0x9f else 0xbf
    some ⟨position, [octet], octet.toNat - 0xe0, [(low, high), (0x80, 0xbf)]⟩
  else if octet < 0xf5 then
    let low := if octet = 0xf0 then 0x90 else 0x80
    let high := if octet = 0xf4 then 0x8f else 0xbf
    some ⟨position, [octet], octet.toNat - 0xf0, [(low, high), (0x80, 0xbf), (0x80, 0xbf)]⟩
  else none

/-- Reads octets from a position on. `begun` is the character that is not complete yet. -/
def decodeFrom (position : Nat) (begun : Option Part) : List UInt8 → Except Error (List Char)
  | [] =>
    match begun with
    | none => .ok []
    | some part => .error ⟨.ending, part.position, part.octets⟩
  | octet :: rest => do
    let part ← match begun with
      | none =>
        match Part.begin? position octet with
        | some part => Except.ok part
        | none => .error ⟨.start, position, [octet]⟩
      | some part =>
        match part.wanted with
        | (low, high) :: wanted =>
          if low ≤ octet ∧ octet ≤ high then
            .ok ⟨part.position, part.octets ++ [octet], part.code * 64 + octet.toNat % 64, wanted⟩
          else .error ⟨.continuation, part.position, part.octets⟩
        | [] => .error ⟨.continuation, part.position, part.octets⟩
    if part.wanted.isEmpty then return .ofNat part.code :: (← decodeFrom (position + 1) none rest)
    else decodeFrom (position + 1) (some part) rest

/-- The text that octets stand for. -/
def decode (octets : List UInt8) : Except Error String :=
  (decodeFrom 0 none octets).map .ofList

end Lox.Text.Utf8
