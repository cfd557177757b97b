import AppPilotKit.Lib.Numeral
import AppPilotKit.Lib.Scripts
import AppPilotKit.Raw.Reader

/-! # What the adapters share

The failures of a platform and small text operations. Text is a list of characters; an output
that is not UTF-8 is no text.
-/

namespace AppPilotKit.Adapter

open Raw (PlatformFailureKind)

abbrev Chars := List Char

structure PlatformFailure where
  kind : PlatformFailureKind
  primaryKind : PlatformFailureKind
  deriving DecidableEq, Repr

def failure (kind : PlatformFailureKind) : PlatformFailure := { kind, primaryKind := kind }

def PlatformFailure.cleanupFailedAfter (primaryKind : PlatformFailureKind) : PlatformFailure :=
  { kind := .cleanupFailed, primaryKind }

/-- A flag that the caller may raise, or a new one that nobody else has. -/
inductive Cancellation where
  | given
  | new
  deriving DecidableEq

/-- A process of an app, and whether the launch in question has started it. -/
structure Process where
  pid : Nat
  launched : Bool
  deriving DecidableEq

def stripSuffix (suffix text : Chars) : Option Chars :=
  if suffix <:+ text then some (text.take (text.length - suffix.length)) else none

def stripPrefix (front text : Chars) : Option Chars :=
  if front <+: text then some (text.drop front.length) else none

/-- `str::parse` for an unsigned integer of some bits. -/
def parseUnsigned (bits : Nat) (text : Chars) : Option Nat :=
  let digits := match text with
    | '+' :: digits => digits
    | digits => digits
  (Numeral.unsignedInteger digits).filter (· < 2 ^ bits)

theorem unsignedInteger_toDigits (n : Nat) : Numeral.unsignedInteger (Nat.toDigits 10 n) = some n := by
  simp [Numeral.unsignedInteger, Numeral.digits_toDigits, Nat.ofDigitChars_ten_toDigits]

theorem parseUnsigned_toDigits {bits n : Nat} (small : n < 2 ^ bits) :
    parseUnsigned bits (Nat.toDigits 10 n) = some n := by
  obtain ⟨c, cs, digits, isDigit⟩ := (Numeral.digits_toDigits n).head
  have unsigned : c ≠ '+' := Numeral.digit_apart isDigit (by decide)
  have reads := unsignedInteger_toDigits n
  unfold parseUnsigned
  rw [digits] at reads ⊢
  simpa [unsigned, reads] using small

theorem toDigits_injective {m n : Nat} (same : Nat.toDigits 10 m = Nat.toDigits 10 n) : m = n := by
  have read := congrArg Numeral.unsignedInteger same
  rwa [unsignedInteger_toDigits, unsignedInteger_toDigits, Option.some.injEq] at read

end AppPilotKit.Adapter
