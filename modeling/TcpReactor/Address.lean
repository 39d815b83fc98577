namespace TcpReactor

/-! # Socket addresses

An address is a host and the number of a service on it, written `1.2.3.4:5` or `[::1]:5`. The
longest run of two or more zero groups of a long host is written `::`, the first such run if there
are several; a host that stands for a short one is written `::ffff:1.2.3.4`.
-/

/-- Where a socket is or connects to. -/
inductive Address
  | v4 (host : List Nat) (service : Nat)
  | v6 (host : List Nat) (scope service : Nat)
  deriving DecidableEq, Repr

namespace Address

/-! ## Writing -/

/-- Four numbers between dots. -/
def showV4 (host : List Nat) : String := ".".intercalate (host.map toString)

/-- Groups in lower-case hexadecimal between colons. -/
def showGroups (groups : List Nat) : String :=
  ":".intercalate (groups.map fun g => .ofList (Nat.toDigits 16 g))

/-- The length of the run of zeros at the front. -/
def zeroRun (groups : List Nat) : Nat := (groups.takeWhile (· == 0)).length

/-- Start and length of the first longest run of zeros in `groups`, which begin at index `i`. -/
def longestZeroRun (i : Nat) : List Nat → Nat × Nat
  | [] => (i, 0)
  | g :: groups =>
      let here := zeroRun (g :: groups)
      let later := longestZeroRun (i + 1) groups
      if later.2 ≤ here then (i, here) else later

/-- Eight groups, with a long enough run of zeros left out. -/
def showV6 (host : List Nat) : String :=
  match host with
  | [0, 0, 0, 0, 0, 0xFFFF, a, b] =>
      "::ffff:" ++ showV4 [a / 256, a % 256, b / 256, b % 256]
  | _ =>
      let (start, length) := longestZeroRun 0 host
      if 1 < length then
        showGroups (host.take start) ++ "::" ++ showGroups (host.drop (start + length))
      else showGroups host

def toString : Address → String
  | .v4 host service => s!"{showV4 host}:{service}"
  | .v6 host 0 service => s!"[{showV6 host}]:{service}"
  | .v6 host scope service => s!"[{showV6 host}%{scope}]:{service}"

/-! ## Reading

A reader takes what it can from the front of a text and gives it with the rest. -/

/-- The value of a digit of the given base. -/
def digit? (base : Nat) (c : Char) : Option Nat :=
  let n := c.toNat
  let value :=
    if '0' ≤ c ∧ c ≤ '9' then n - '0'.toNat
    else if 'a' ≤ c ∧ c ≤ 'f' then n - 'a'.toNat + 10
    else if 'A' ≤ c ∧ c ≤ 'F' then n - 'A'.toNat + 10
    else base
  if value < base then some value else none

/-- A number of at least one and at most `width` digits that is less than `bound`. -/
def number? (base width bound : Nat) (text : List Char) : Option (Nat × List Char) :=
  let digits := text.takeWhile fun c => (digit? base c).isSome
  let value := (digits.filterMap (digit? base)).foldl (fun n d => n * base + d) 0
  if digits.isEmpty || width < digits.length || bound ≤ value then none
  else some (value, text.drop digits.length)

/-- The rest of a text after `mark`. -/
def skip? (mark : List Char) (text : List Char) : Option (List Char) := mark.isPrefixOf? text

/-- One of the four numbers of a short host. It has no leading zero. -/
def octet? (text : List Char) : Option (Nat × List Char) := do
  let (n, rest) ← number? 10 3 256 text
  if text.head? = some '0' ∧ rest.length + 1 < text.length then none else some (n, rest)

/-- A short host. -/
def v4Host? (text : List Char) : Option (List Nat × List Char) := do
  let (a, text) ← octet? text
  let (b, text) ← octet? (← skip? ['.'] text)
  let (c, text) ← octet? (← skip? ['.'] text)
  let (d, text) ← octet? (← skip? ['.'] text)
  return ([a, b, c, d], text)

/-- Up to `limit` groups of a long host, with colons between them, and whether the last two were
written as a short host, after which no group follows. -/
def groups? : (limit : Nat) → (first : Bool) → List Char → List Nat × Bool × List Char
  | 0, _, text => ([], false, text)
  | limit + 1, first, text =>
      match if first then some text else skip? [':'] text with
      | none => ([], false, text)
      | some body =>
          match if limit = 0 then none else v4Host? body with
          | some ([a, b, c, d], rest) => ([a * 256 + b, c * 256 + d], true, rest)
          | _ =>
              match number? 16 4 UInt16.size body with
              | none => ([], false, text)
              | some (g, rest) =>
                  let (more, short, rest) := groups? limit false rest
                  (g :: more, short, rest)

/-- A long host: eight groups, or fewer around one `::`. A short host can only be at its end. -/
def v6Host? (text : List Char) : Option (List Nat × List Char) := do
  let (front, short, rest) := groups? 8 true text
  if front.length = 8 then return (front, rest)
  if short then none
  let rest ← skip? [':', ':'] rest
  let (back, _, rest) := groups? (7 - front.length) true rest
  return (front ++ .replicate (8 - front.length - back.length) 0 ++ back, rest)

/-- The number of a service, to the end of the text. -/
def service? (text : List Char) : Option Nat := do
  let (service, rest) ← number? 10 text.length UInt16.size (← skip? [':'] text)
  if rest.isEmpty then some service else none

/-- The address that a text spells. -/
def ofString? (text : String) : Option Address :=
  match text.toList with
  | '[' :: text => do
      let (host, text) ← v6Host? text
      let (scope, text) ← match text with
        | '%' :: text => number? 10 text.length UInt32.size text
        | _ => some (0, text)
      return .v6 host scope (← service? (← skip? [']'] text))
  | text => do
      let (host, text) ← v4Host? text
      return .v4 host (← service? text)

/-- A service of this host. -/
def loopback (service : Nat) : Address := .v4 [127, 0, 0, 1] service

end Address
end TcpReactor
