import Anchored.Json.Printer

/-!
# Made-up names

A run without a name gets a random identifier of version 4: 122 random bits, written as 32
hexadecimal digits in five groups.
-/

namespace Anchored.CommandLine

/-- A byte with the mark of its place: the version in the seventh, the variant in the ninth. -/
def marked (place : Nat) (b : UInt8) : UInt8 :=
  if place = 6 then (b &&& 0x0F) ||| 0x40
  else if place = 8 then (b &&& 0x3F) ||| 0x80
  else b

/-- A byte as two digits, behind a hyphen where a group starts. -/
def written (place : Nat) (b : UInt8) : List Char :=
  let n := (marked place b).toNat
  (if [4, 6, 8, 10].contains place then ['-'] else []) ++
    [Json.hexDigit (n / 16), Json.hexDigit (n % 16)]

/-- The identifier made of sixteen random bytes. -/
def identifier (bytes : List UInt8) : String :=
  String.ofList (bytes.zipIdx.flatMap fun (b, place) => written place b)

end Anchored.CommandLine
