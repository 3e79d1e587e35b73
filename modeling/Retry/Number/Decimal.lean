import Retry.Number.Binary64

/-!
# Decimal texts of binary64 numbers

`Decimal.shortest` finds the fewest digits that read back as a given double:
for one digit, two digits and so on it tries the double's two neighbours on
that decimal grid, and the first grid with a neighbour that reads back wins.
`Binary64.text` writes those digits positionally from `1e-4` up to `1e16` and
in scientific form elsewhere; `Binary64.fixed` rounds the exact binary value to
a number of places. `Binary64.read?` reads either form.

`read_of_mem_readable` says that every decimal the search accepts does read back.
-/

namespace Retry

/-- The positive decimal `digits · 10 ^ exponent`. -/
structure Decimal where
  digits : Nat
  exponent : Int
  deriving DecidableEq, Repr

namespace Decimal

/-- How many decimal digits a whole number has; zero has one. -/
def digitCount (n : Nat) : Nat := (Nat.toDigits 10 n).length

def toBinary64 (d : Decimal) (negative : Bool) : Binary64 :=
  Binary64.ofRatio negative (d.digits * 10 ^ d.exponent.toNat) (10 ^ (-d.exponent).toNat)

/-- The exponent of the leading decimal digit of `num / den`, for a positive fraction. -/
def leadingExponent (num den : Nat) : Int :=
  if den ≤ num then (digitCount (num / den) : Int) - 1 else -(digitCount ((den - 1) / num) : Int)

/-- The two neighbours of `num / den` among the multiples of `10 ^ exponent`,
the nearer one first; of two equally near ones the even one. -/
def neighbours (num den : Nat) (exponent : Int) : List Decimal :=
  let num := num * 10 ^ (-exponent).toNat
  let den := den * 10 ^ exponent.toNat
  let below := num / den
  if roundHalfEven num den = below then [⟨below, exponent⟩, ⟨below + 1, exponent⟩]
  else [⟨below + 1, exponent⟩, ⟨below, exponent⟩]

/-- The neighbours of `units` with `precision` digits that read back, nearer first. -/
def readable (units precision : Nat) : List Decimal :=
  let grid := leadingExponent units Binary64.one - (precision : Int) + 1
  (neighbours units Binary64.one grid).filter fun d =>
    Binary64.roundUnits (d.digits * 10 ^ d.exponent.toNat * Binary64.one)
      (10 ^ (-d.exponent).toNat) == units

/-- Drops trailing zeros of the digits, at most `fuel` of them. -/
def trim : Nat → Decimal → Decimal
  | 0, d => d
  | fuel + 1, d =>
    if d.digits % 10 = 0 ∧ d.digits ≠ 0 then trim fuel ⟨d.digits / 10, d.exponent + 1⟩ else d

/-- The decimal with the fewest digits that reads back as a positive magnitude.
Seventeen digits always suffice. -/
def shortest (units : Nat) : Decimal :=
  let found := (List.range 17).findSome? fun i => (readable units (i + 1)).head?
  trim 20 (found.getD ⟨units, 0⟩)

theorem read_of_mem_readable {units precision : Nat} {d : Decimal}
    (h : Binary64.Representable units) (hd : d ∈ readable units precision) (negative : Bool) :
    d.toBinary64 negative = .finite negative units h := by
  have := (List.mem_filter.1 hd).2
  simp only [beq_iff_eq] at this
  simp [toBinary64, Binary64.ofRatio, Binary64.ofUnits, this, h]

end Decimal

namespace Binary64

def signText (negative : Bool) : List Char := if negative then ['-'] else []

/-- An exponent with its sign and at least two digits. -/
def exponentText (e : Int) : List Char :=
  let digits := Nat.toDigits 10 e.natAbs
  (if e < 0 then '-' else '+') :: (List.replicate (2 - digits.length) '0' ++ digits)

/-- A positive decimal: positional if its leading digit stands from `10^-4` to
`10^15`, always with a fractional part; scientific elsewhere. -/
def decimalText (d : Decimal) : List Char :=
  let digits := Nat.toDigits 10 d.digits
  let leading := d.exponent + digits.length - 1
  if -4 ≤ leading ∧ leading < 16 then
    if 0 ≤ d.exponent then digits ++ List.replicate d.exponent.toNat '0' ++ ['.', '0']
    else if 0 ≤ leading then
      digits.take (leading.toNat + 1) ++ '.' :: digits.drop (leading.toNat + 1)
    else '0' :: '.' :: (List.replicate ((-leading).toNat - 1) '0' ++ digits)
  else
    let fraction := match digits.drop 1 with
      | [] => []
      | rest => '.' :: rest
    digits.take 1 ++ fraction ++ 'e' :: exponentText leading

/-- The shortest text that reads back as this double. -/
def text : Binary64 → List Char
  | .nan => ['n', 'a', 'n']
  | .infinite s => signText s ++ ['i', 'n', 'f']
  | .finite s u _ =>
    signText s ++ if u = 0 then ['0', '.', '0'] else decimalText (Decimal.shortest u)

/-- The exact value rounded to `places` decimals, a half to the even neighbour.
A negative number keeps its sign also when it rounds to zero. -/
def fixed (places : Nat) : Binary64 → List Char
  | .nan => ['n', 'a', 'n']
  | .infinite s => signText s ++ ['i', 'n', 'f']
  | .finite s u _ =>
    let scaled := roundHalfEven (u * 10 ^ places) one
    let fraction := Nat.toDigits 10 (scaled % 10 ^ places)
    signText s ++ Nat.toDigits 10 (scaled / 10 ^ places) ++
      '.' :: (List.replicate (places - fraction.length) '0' ++ fraction)

/-- The double nearest to `whole.fraction · 10 ^ exponent`, given as digits. -/
def ofDigits (negative : Bool) (whole fraction : List Char) (exponent : Int) : Binary64 :=
  (Decimal.mk (Nat.ofDigitChars 10 (whole ++ fraction) 0)
    (exponent - fraction.length)).toBinary64 negative

/-- Reads a signed exponent after its mark: digits with an optional sign. -/
def readExponent? : List Char → Option Int
  | '-' :: ds =>
    if ds ≠ [] ∧ ds.all Char.isDigit then some (-(Nat.ofDigitChars 10 ds 0 : Int)) else none
  | '+' :: ds => if ds ≠ [] ∧ ds.all Char.isDigit then some (Nat.ofDigitChars 10 ds 0) else none
  | ds => if ds ≠ [] ∧ ds.all Char.isDigit then some (Nat.ofDigitChars 10 ds 0) else none

/-- Reads an unsigned number: digits, an optional fraction, an optional exponent. -/
def readUnsigned? (negative : Bool) (cs : List Char) : Option Binary64 :=
  let whole := cs.takeWhile Char.isDigit
  let rest := cs.dropWhile Char.isDigit
  let (fraction, rest) := match rest with
    | '.' :: r => (r.takeWhile Char.isDigit, r.dropWhile Char.isDigit)
    | r => ([], r)
  if whole = [] ∧ fraction = [] then none
  else match rest with
    | [] => some (ofDigits negative whole fraction 0)
    | c :: r =>
      if c = 'e' ∨ c = 'E' then (readExponent? r).map (ofDigits negative whole fraction) else none

/-- Reads a magnitude: a word in letters of either case, or a number. -/
def readMagnitude? (negative : Bool) (cs : List Char) : Option Binary64 :=
  let word := String.ofList (cs.map Char.toLower)
  if word = "nan" then some .nan
  else if word = "inf" ∨ word = "infinity" then some (.infinite negative)
  else readUnsigned? negative cs

/-- Reads the text of a double: a magnitude with an optional sign. -/
def read? : List Char → Option Binary64
  | '-' :: cs => readMagnitude? true cs
  | '+' :: cs => readMagnitude? false cs
  | cs => readMagnitude? false cs

end Binary64

end Retry
