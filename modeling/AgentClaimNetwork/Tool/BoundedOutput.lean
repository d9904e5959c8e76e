import AgentClaimNetwork.Library.Utf8

/-!
The bounded buffer for the output of a process, from `src/tool/process/output.rs`: a fixed head,
a rolling tail, and the pages a reader is given.
-/

namespace AgentClaimNetwork.Tool

open Library

inductive Utf8Front
  | character (value : Char) (rest : List UInt8)
  | illFormed (width : Nat) (rest : List UInt8)
  | unfinished

def Utf8Front.continued (pending : Utf8.Pending) (width : Nat) : List UInt8 → Utf8Front
  | [] => .unfinished
  | byte :: rest =>
    if pending.low ≤ byte.toNat ∧ byte.toNat ≤ pending.high then
      let value := pending.value * 64 + (byte.toNat - 0x80)
      if pending.owed = 1 then .character (Char.ofNat value) rest
      else continued ⟨pending.owed - 1, 0x80, 0xBF, value⟩ (width + 1) rest
    else .illFormed width (byte :: rest)

def Utf8Front.of : List UInt8 → Utf8Front
  | [] => .unfinished
  | byte :: rest =>
    if byte.toNat < 0x80 then .character (Char.ofNat byte.toNat) rest
    else match Utf8.lead byte.toNat with
      | some pending => continued pending 1 rest
      | none => .illFormed 1 rest

/-- The result of `str::from_utf8`, with `Utf8Error::valid_up_to` and `Utf8Error::error_len`. -/
inductive FromUtf8
  | ok (text : List Char)
  | error (validUpTo : Nat) (errorLen : Option Nat)

def FromUtf8.after (value : Char) (width : Nat) : FromUtf8 → FromUtf8
  | ok text => ok (value :: text)
  | error validUpTo errorLen => error (width + validUpTo) errorLen

def fromUtf8Within : Nat → List UInt8 → FromUtf8
  | _, [] => .ok []
  | 0, _ => .ok []
  | fuel + 1, bytes =>
    match Utf8Front.of bytes with
    | .character value rest =>
      (fromUtf8Within fuel rest).after value (bytes.length - rest.length)
    | .illFormed width _ => .error 0 (some width)
    | .unfinished => .error 0 none

/-- `str::from_utf8`, where every character takes a byte at least. -/
def fromUtf8 (bytes : List UInt8) : FromUtf8 := fromUtf8Within bytes.length bytes

structure ProcessOutput where
  bytes : List UInt8
  cursor : Nat
  truncated : Bool
  omittedBytes : Nat
  pageContiguous : Bool
  hasMoreRetained : Bool

structure BoundedOutput where
  maxBytes : Nat
  headLimit : Nat
  head : List UInt8
  headSealed : Bool
  tail : List UInt8
  headChars : Nat
  tailChars : Nat
  pendingUtf8 : List UInt8
  cursor : Nat
  omittedBytes : Nat
  incomplete : Bool

def scalarBytes (first : UInt8) : Nat :=
  if first.toNat ≤ 0x7f then 1
  else if 0xc2 ≤ first.toNat ∧ first.toNat ≤ 0xdf then 2
  else if 0xe0 ≤ first.toNat ∧ first.toNat ≤ 0xef then 3
  else if 0xf0 ≤ first.toNat ∧ first.toNat ≤ 0xf4 then 4
  else 1

def popFrontUtf8Scalar : List UInt8 → Nat × List UInt8
  | [] => (0, [])
  | first :: rest => (scalarBytes first, (first :: rest).drop (scalarBytes first))

def tailFromCharOffset (tail : List UInt8) : Nat → List UInt8
  | 0 => tail
  | offset + 1 =>
    match tail with
    | [] => []
    | first :: rest => tailFromCharOffset ((first :: rest).drop (scalarBytes first)) offset

namespace BoundedOutput

def new (maxBytes : Nat) : BoundedOutput where
  maxBytes := maxBytes
  headLimit := maxBytes / 2
  head := []
  headSealed := false
  tail := []
  headChars := 0
  tailChars := 0
  pendingUtf8 := []
  cursor := 0
  omittedBytes := 0
  incomplete := false

def makeRoom (needed tailLimit : Nat) : Nat → BoundedOutput → BoundedOutput
  | 0, output => output
  | fuel + 1, output =>
    if tailLimit < output.tail.length + needed then
      let (removed, tail) := popFrontUtf8Scalar output.tail
      makeRoom needed tailLimit fuel { output with
        tail := tail
        omittedBytes := output.omittedBytes + removed
        tailChars := output.tailChars - 1 }
    else output

variable (output : BoundedOutput)

def appendChar (value : Char) : BoundedOutput :=
  let output := { output with cursor := output.cursor + 1 }
  let bytes := String.utf8EncodeChar value
  if output.headSealed = false ∧ output.head.length + bytes.length ≤ output.headLimit then
    { output with head := output.head ++ bytes, headChars := output.headChars + 1 }
  else
    let output := { output with headSealed := true }
    let tailLimit := output.maxBytes - output.head.length
    if tailLimit < bytes.length then
      { output with
        omittedBytes := output.omittedBytes + (output.tail.length + bytes.length)
        tail := []
        tailChars := 0 }
    else
      let output := makeRoom bytes.length tailLimit output.tail.length output
      { output with tail := output.tail ++ bytes, tailChars := output.tailChars + 1 }

def appendChars (text : List Char) : BoundedOutput :=
  text.foldl appendChar output

/-- The loop of `append`; every round takes a byte at least. -/
def decodePending : Nat → BoundedOutput → BoundedOutput
  | 0, output => output
  | fuel + 1, output =>
    match fromUtf8 output.pendingUtf8 with
    | .ok text => { output with pendingUtf8 := [] }.appendChars text
    | .error validUpTo errorLen =>
      if 0 < validUpTo then
        match fromUtf8 (output.pendingUtf8.take validUpTo) with
        | .ok text => decodePending fuel
            ({ output with pendingUtf8 := output.pendingUtf8.drop validUpTo }.appendChars text)
        | .error _ _ => { output with incomplete := true }
      else match errorLen with
        | none => output
        | some invalidBytes => decodePending fuel
            ({ output with pendingUtf8 := output.pendingUtf8.drop invalidBytes }.appendChar
              '\uFFFD')

def append (bytes : List UInt8) : BoundedOutput :=
  let output := { output with pendingUtf8 := output.pendingUtf8 ++ bytes }
  decodePending (output.pendingUtf8.length + 1) output

def finish : BoundedOutput :=
  if output.pendingUtf8.isEmpty then output
  else { output with pendingUtf8 := [] }.appendChar '\uFFFD'

def snapshot : ProcessOutput where
  bytes := output.head ++ output.tail
  cursor := output.cursor
  truncated := 0 < output.omittedBytes || output.incomplete
  omittedBytes := output.omittedBytes
  pageContiguous := output.omittedBytes = 0
  hasMoreRetained := false

/-- `text.chars().skip(skip)` of bytes that are a text. -/
def skipChars (bytes : List UInt8) (skip : Nat) : List UInt8 :=
  match fromUtf8 bytes with
  | .ok text => Utf8.encode (text.drop skip)
  | .error _ _ => []

def snapshotSince (cursor : Nat) : ProcessOutput :=
  let current := output.snapshot
  let tailStart := output.cursor - output.tailChars
  if output.cursor < cursor then
    ⟨[], current.cursor, true, current.omittedBytes, false, false⟩
  else if cursor = output.cursor then
    ⟨[], current.cursor, current.truncated, current.omittedBytes, true, false⟩
  else if output.omittedBytes = 0 then
    ⟨skipChars current.bytes cursor, current.cursor, current.truncated, current.omittedBytes, true,
      false⟩
  else if cursor < output.headChars then
    ⟨skipChars output.head cursor, output.headChars, true, current.omittedBytes, true, true⟩
  else if cursor < tailStart then
    ⟨[], tailStart, true, current.omittedBytes, true, !output.tail.isEmpty⟩
  else
    ⟨tailFromCharOffset output.tail (cursor - tailStart), current.cursor, current.truncated,
      current.omittedBytes, true, false⟩

end BoundedOutput

end AgentClaimNetwork.Tool
