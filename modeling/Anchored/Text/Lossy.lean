/-!
# Bytes as text

Bytes that are meant as text but may not be: what is no part of a UTF-8 form is shown as the
replacement character, one for every longest run of bytes with which a form could have started.
-/

namespace Anchored.Text

/-- The replacement character. -/
def replacement : Char :=
  '\ufffd'

/-- The byte goes on with a form that others started. -/
def isFollowing (b : UInt8) : Bool :=
  0x80 ≤ b && b ≤ 0xBF

/-- The bytes that may follow the first byte of a form directly, and how many follow in all. -/
def following (b : UInt8) : Option (UInt8 × UInt8 × Nat) :=
  if 0xC2 ≤ b ∧ b ≤ 0xDF then some (0x80, 0xBF, 1)
  else if b = 0xE0 then some (0xA0, 0xBF, 2)
  else if b = 0xED then some (0x80, 0x9F, 2)
  else if 0xE1 ≤ b ∧ b ≤ 0xEF then some (0x80, 0xBF, 2)
  else if b = 0xF0 then some (0x90, 0xBF, 3)
  else if 0xF1 ≤ b ∧ b ≤ 0xF3 then some (0x80, 0xBF, 3)
  else if b = 0xF4 then some (0x80, 0x8F, 3)
  else none

/-- The number that a form of several bytes stands for. -/
def formValue (lead : UInt8) (rest : List UInt8) : Nat :=
  let first := lead.toNat % Nat.pow 2 (6 - rest.length)
  rest.foldl (fun n b => n * 64 + b.toNat % 64) first

/-- The characters of a list of bytes. -/
def lossy : Nat → List UInt8 → List Char
  | 0, _ => []
  | _, [] => []
  | fuel + 1, b :: r =>
    if b < 0x80 then Char.ofNat b.toNat :: lossy fuel r
    else
      match following b with
      | none => replacement :: lossy fuel r
      | some (low, high, n) =>
        let rest := match r with
          | c :: more =>
            if low ≤ c ∧ c ≤ high then c :: (more.takeWhile isFollowing).take (n - 1) else []
          | [] => []
        let c := if rest.length = n then Char.ofNat (formValue b rest) else replacement
        c :: lossy fuel (r.drop rest.length)

/-- Bytes as a text. -/
def ofBytes (bytes : ByteArray) : String :=
  String.ofList (lossy bytes.size bytes.toList)

end Anchored.Text
