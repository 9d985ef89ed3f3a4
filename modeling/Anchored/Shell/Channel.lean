/-!
# Channels

What is written to a channel can be read once. Commands run one after another here even if they
would run side by side, so every piece is kept with the time at which it was written, and it is read
before all that was written later.
-/

namespace Anchored.Shell

/-- Pieces that were written and not read, each with its time, the latest first. -/
structure Channel where
  pieces : List (Nat × ByteArray)

namespace Channel

/-- A channel of which nothing is left to read. -/
def empty : Channel :=
  ⟨[]⟩

/-- A channel with bytes that were there from the start. -/
def of (bytes : ByteArray) : Channel :=
  ⟨[(0, bytes)]⟩

/-- The pieces with another one behind those that were written no later. -/
def insert (time : Nat) (bytes : ByteArray) : List (Nat × ByteArray) → List (Nat × ByteArray)
  | [] => [(time, bytes)]
  | (t, old) :: rest =>
    if time < t then (t, old) :: insert time bytes rest
    else if time = t then (t, old ++ bytes) :: rest
    else (time, bytes) :: (t, old) :: rest

/-- Writes bytes at a time. -/
def write (c : Channel) (time : Nat) (bytes : ByteArray) : Channel :=
  ⟨insert time bytes c.pieces⟩

/-- The bytes that can be read. -/
def bytes (c : Channel) : ByteArray :=
  match c.pieces with
  | [(_, bytes)] => bytes
  | pieces => pieces.foldr (fun (_, bytes) all => all ++ bytes) .empty

/-- The number of bytes that can be read. -/
def size (c : Channel) : Nat :=
  c.pieces.foldl (fun n (_, bytes) => n + bytes.size) 0

/-- The first bytes of pieces, the earliest of which comes first; the time at which the last of them
was written; and the pieces behind them. -/
def takeFirst : Nat → List (Nat × ByteArray) → ByteArray × Nat × List (Nat × ByteArray)
  | 0, pieces => (.empty, 0, pieces)
  | _, [] => (.empty, 0, [])
  | size, (time, bytes) :: rest =>
    if size < bytes.size then
      (bytes.extract 0 size, time, (time, bytes.extract size bytes.size) :: rest)
    else
      let (more, last, rest) := takeFirst (size - bytes.size) rest
      (bytes ++ more, max time last, rest)

/-- The first bytes, the time at which the last of them was written, and the channel behind them. -/
def take (c : Channel) (size : Nat) : ByteArray × Nat × Channel :=
  let (bytes, time, rest) := takeFirst size c.pieces.reverse
  (bytes, time, ⟨rest.reverse⟩)

end Channel

end Anchored.Shell
