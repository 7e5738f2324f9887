import Mathlib.Algebra.Order.Ring.Int
import Mathlib.Tactic.Common

/-!
# Texts and numbers in them

The functions of Go's `strings` and `strconv` that parse and print lines, over lists of characters:
`cut`, `fields`, `parseInt`, `formatInt` and `quote`. What a format verb puts into a line is given
by `fields_append` and `parseInt_toDigits`: a blank separates the fields before it from those after
it, and a printed number is read back.
-/

namespace Texts

abbrev Text := List Char

/-- `strings.Cut`. -/
def cut (sep : Text) : Text → Option (Text × Text)
  | [] => if sep = [] then some ([], []) else none
  | c :: cs =>
    match (c :: cs).dropPrefix? sep with
    | some rest => some ([], rest)
    | none => (cut sep cs).map fun r => (c :: r.1, r.2)

/-! ## Numbers -/

/-- Whether there is a minus sign, and what follows the sign. -/
def sign : Text → Bool × Text
  | '-' :: ds => (true, ds)
  | '+' :: ds => (false, ds)
  | ds => (false, ds)

/-- `strconv.ParseInt` in base 10. -/
def parseInt (bits : Nat) (s : Text) : Option Int :=
  let (neg, ds) := sign s
  if ds = [] || ds.any (!·.isDigit) then none
  else
    let n : Int := Nat.ofDigitChars 10 ds 0
    let n := if neg then -n else n
    if -2 ^ (bits - 1) ≤ n ∧ n < 2 ^ (bits - 1) then some n else none

/-- `%d`. -/
def formatInt (n : Int) : Text :=
  if n < 0 then '-' :: Nat.toDigits 10 n.natAbs else Nat.toDigits 10 n.natAbs

theorem isDigit_of_mem_toDigits {n : Nat} {c : Char} (h : c ∈ Nat.toDigits 10 n) :
    c.isDigit :=
  Nat.isDigit_of_mem_toDigits (by decide) (by decide) h

theorem sign_toDigits (n : Nat) : sign (Nat.toDigits 10 n) = (false, Nat.toDigits 10 n) := by
  have h : ∀ c ∈ Nat.toDigits 10 n, c.isDigit := fun c => isDigit_of_mem_toDigits
  unfold sign
  split
  case h_1 ds hd => exact absurd (h '-' (by simp [hd])) (by decide)
  case h_2 ds hd => exact absurd (h '+' (by simp [hd])) (by decide)
  case h_3 => rfl

theorem parseInt_toDigits {bits n : Nat} (h : n < 2 ^ (bits - 1)) :
    parseInt bits (Nat.toDigits 10 n) = some (n : Int) := by
  have hdigits : ∀ c ∈ Nat.toDigits 10 n, c.isDigit := fun c => isDigit_of_mem_toDigits
  have hlt : (n : Int) < 2 ^ (bits - 1) := by exact_mod_cast h
  have hrange : -2 ^ (bits - 1) ≤ (n : Int) := by omega
  simpa [parseInt, sign_toDigits, hrange, hlt] using hdigits

/-! ## Fields -/

/-- `unicode.IsSpace`. -/
def isSpace (c : Char) : Bool :=
  c.toNat ∈ [0x9, 0xa, 0xb, 0xc, 0xd, 0x20, 0x85, 0xa0, 0x1680, 0x2028, 0x2029, 0x202f, 0x205f,
    0x3000] || (0x2000 ≤ c.toNat && c.toNat ≤ 0x200a)

/-- `strings.Fields`. -/
def fields (s : Text) : List Text := (s.splitOnP isSpace).filter (· ≠ [])

theorem fields_append {p : Text} (hp : p.getLast? = some ' ') (s : Text) :
    fields (p ++ s) = fields p ++ fields s := by
  obtain ⟨q, rfl⟩ : ∃ q, p = q ++ [' '] := by
    have hne : p ≠ [] := by rintro rfl; cases hp
    rw [List.getLast?_eq_some_getLast hne, Option.some.injEq] at hp
    exact ⟨p.dropLast, by rw [← hp, List.dropLast_concat_getLast]⟩
  have hsplit (s : Text) : fields (q ++ ' ' :: s) = fields q ++ fields s := by
    rw [fields, List.splitOnP_append_cons q s (by decide), List.filter_append]
    rfl
  rw [List.append_assoc, List.singleton_append, hsplit, hsplit]
  simp [fields]

theorem fields_of_no_space {s : Text} (hne : s ≠ []) (h : ∀ c ∈ s, isSpace c = false) :
    fields s = [s] := by
  simp [fields, List.splitOnP_eq_singleton h, hne]

theorem isSpace_of_isDigit {c : Char} (h : c.isDigit) : isSpace c = false := by
  rw [Char.isDigit_iff_toNat] at h
  change 48 ≤ c.toNat ∧ c.toNat ≤ 57 at h
  simp only [isSpace, List.mem_cons, List.not_mem_nil, or_false, Bool.or_eq_false_iff,
    decide_eq_false_iff_not, Bool.and_eq_false_iff]
  omega

/-! ## Quoting -/

/-- The control characters that have an escape of one letter. -/
def escapes : List (Nat × Char) :=
  [(7, 'a'), (8, 'b'), (9, 't'), (10, 'n'), (11, 'v'), (12, 'f'), (13, 'r')]

/-- How `strconv.Quote` writes a character; which ones are printable is left to `unicode`. -/
def quoteChar (isPrint : Char → Bool) (c : Char) : Text :=
  let hex (width : Nat) := (List.range width).reverse.map fun i =>
    Nat.digitChar (c.toNat / 16 ^ i % 16)
  if c = '"' ∨ c = '\\' then ['\\', c]
  else
    match escapes.find? (·.1 = c.toNat) with
    | some e => ['\\', e.2]
    | none =>
      if isPrint c then [c]
      else if c.toNat < 0x20 ∨ c.toNat = 0x7f then '\\' :: 'x' :: hex 2
      else if c.toNat < 0x10000 then '\\' :: 'u' :: hex 4
      else '\\' :: 'U' :: hex 8

/-- `%q`. -/
def quote (isPrint : Char → Bool) (s : Text) : Text :=
  '"' :: s.flatMap (quoteChar isPrint) ++ ['"']

theorem newline_not_mem_quoteChar (isPrint : Char → Bool) (c : Char) :
    '\n' ∉ quoteChar isPrint c := by
  have hhex (i : Nat) : Nat.digitChar (c.toNat / 16 ^ i % 16) ≠ '\n' := by
    have hdigit : ∀ d < 16, Nat.digitChar d ≠ '\n' := by decide
    exact hdigit _ (Nat.mod_lt _ (by decide))
  unfold quoteChar
  dsimp only
  split
  case isTrue hesc => rcases hesc with rfl | rfl <;> decide
  case isFalse =>
    split
    case h_1 e he =>
      have hletter : ∀ p ∈ escapes, p.2 ≠ '\n' := by decide
      simp [(hletter e (List.mem_of_find?_eq_some he)).symm]
    case h_2 hnone =>
      have hc : c ≠ '\n' := by
        rintro rfl
        revert hnone
        decide
      split_ifs <;> simp [hhex, hc.symm]

theorem newline_not_mem_quote (isPrint : Char → Bool) (s : Text) : '\n' ∉ quote isPrint s := by
  simp [quote, newline_not_mem_quoteChar]

theorem newline_not_mem_formatInt (n : Int) : '\n' ∉ formatInt n := by
  have hdigits : '\n' ∉ Nat.toDigits 10 n.natAbs := fun h =>
    absurd (isDigit_of_mem_toDigits h) (by decide)
  unfold formatInt
  split_ifs
  · simpa using hdigits
  · exact hdigits

end Texts
