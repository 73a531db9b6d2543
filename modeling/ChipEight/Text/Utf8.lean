/-
This file turns bytes into text and back, one to four bytes for each character, and says where and
why bytes stand for no text.
-/

namespace ChipEight.Utf8

/-- Why bytes stand for no character. -/
inductive Defect where
  | start
  | continuation
  | truncated
  deriving DecidableEq, Repr

def Defect.text : Defect → String
  | start => "invalid start byte"
  | continuation => "invalid continuation byte"
  | truncated => "unexpected end of data"

/-- A run of bytes that stands for no character. -/
structure Problem where
  position : Nat
  length : Nat
  first : UInt8
  defect : Defect
  deriving DecidableEq, Repr

def isContinuation (byte : UInt8) : Bool :=
  0x80 ≤ byte && byte ≤ 0xbf

/-- The second byte of a character has bounds of its own after some first bytes. -/
def secondFits (first second : UInt8) : Bool :=
  if first == 0xe0 then 0xa0 ≤ second && second ≤ 0xbf
  else if first == 0xed then 0x80 ≤ second && second ≤ 0x9f
  else if first == 0xf0 then 0x90 ≤ second && second ≤ 0xbf
  else if first == 0xf4 then 0x80 ≤ second && second ≤ 0x8f
  else isContinuation second

/-- A byte fits after the first `taken` bytes of a character. -/
def follows (first : UInt8) (taken : Nat) (byte : UInt8) : Bool :=
  if taken == 1 then secondFits first byte else isContinuation byte

/-- The number of bytes after the first, and the bits that the first gives. -/
def head? (first : UInt8) : Option (Nat × Nat) :=
  let code := first.toNat
  if code < 0x80 then some (0, code)
  else if code < 0xc2 then none
  else if code < 0xe0 then some (1, code - 0xc0)
  else if code < 0xf0 then some (2, code - 0xe0)
  else if code < 0xf5 then some (3, code - 0xf0)
  else none

/-- The character that further bytes complete, and what follows it. `taken` counts the bytes so
far. -/
def complete (first : UInt8) (code taken : Nat) :
    Nat → List UInt8 → Except (Nat × Defect) (Nat × List UInt8)
  | 0, rest => .ok (code, rest)
  | _ + 1, [] => .error (taken, .truncated)
  | more + 1, byte :: rest =>
      if follows first taken byte then
        complete first (64 * code + (byte.toNat - 0x80)) (taken + 1) more rest
      else .error (taken, .continuation)

theorem completeShorter {first : UInt8} {code taken more : Nat} {bytes : List UInt8}
    {result : Nat × List UInt8} (done : complete first code taken more bytes = .ok result) :
    result.2.length ≤ bytes.length := by
  induction more generalizing code taken bytes with
  | zero =>
      simp only [complete, Except.ok.injEq] at done
      simp [← done]
  | succ more inductionHypothesis =>
      cases bytes with
      | nil => simp [complete] at done
      | cons byte rest =>
          simp only [complete] at done
          split at done
          · have shorter := inductionHypothesis done
            simp only [List.length_cons]
            omega
          · simp at done

/-- The characters that bytes stand for; `position` is the place of the first byte. -/
def characters (position : Nat) : List UInt8 → Except Problem (List Char)
  | [] => .ok []
  | first :: rest =>
      match head? first with
      | none => .error ⟨position, 1, first, .start⟩
      | some (more, code) =>
          match outcome : complete first code 1 more rest with
          | .error (length, defect) => .error ⟨position, length, first, defect⟩
          | .ok (whole, others) => do
              let following ← characters (position + more + 1) others
              pure (Char.ofNat whole :: following)
termination_by bytes => bytes.length
decreasing_by
  have shorter := completeShorter outcome
  simp only [List.length_cons]
  simp only at shorter
  omega

def decode (bytes : List UInt8) : Except Problem String :=
  (characters 0 bytes).map String.ofList

end ChipEight.Utf8
