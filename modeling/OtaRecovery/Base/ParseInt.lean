import OtaRecovery.Base.Strings
import Mathlib.Data.Nat.Digits

/-!
# Numbers in text: `ParseInt`, `ParseUint` and `%d`

`android-base/parseint.h` reads a whole C string as a number. It picks base 16 when the string
starts with `0x` and base 10 otherwise, calls `strtoll` or `strtoull`, and succeeds when the
conversion read a digit, stopped at the end of the string, did not overflow (`errno` unset) and
landed within the caller's bounds.

* `strtoScan base s` is the part of `strtoll`/`strtoull` a whole-string reader sees: leading
  white space, a sign and (in base 16) a `0x` are skipped, and what is left must be a nonempty
  run of digits.
* `parseInt s min max` and `parseUint s max` are `ParseInt` and `ParseUint`; `parseInt_mem`
  and `parseUint_le` say their results lie within the bounds.
* `decimal n` is `n` printed by `%d`, `%ld` or `std::to_string`; it holds no newline
  (`newline_not_mem_decimal`), and `ParseInt` reads it back (`parseInt_decimal`).
-/

namespace OtaRecovery

/-- `INT64_MIN`, `INT64_MAX`, `INT_MAX`, `UINT_MAX` and `SIZE_MAX` on an LP64 host. -/
def int64Min : Int := -2 ^ 63
def int64Max : Int := 2 ^ 63 - 1
def intMax : Int := 2 ^ 31 - 1
def uintMax : Nat := 2 ^ 32 - 1
def sizeMax : Nat := 2 ^ 64 - 1

/-- The value of `c` as a digit of `base`, as the `strto*` functions read it. -/
def digitValue (base : Nat) (c : Char) : Option Nat :=
  let d :=
    if c.isDigit then c.toNat - '0'.toNat
    else if c.isLower then c.toNat - 'a'.toNat + 10
    else if c.isUpper then c.toNat - 'A'.toNat + 10
    else base
  if d < base then some d else none

/-- The value of a run of digits of `base`, most significant first, after `acc`; `none` when a
character is not a digit. -/
def digitsValue (base : Nat) : Nat → List Char → Option Nat
  | acc, [] => some acc
  | acc, c :: s => (digitValue base c).bind fun d => digitsValue base (acc * base + d) s

/-- The optional sign `strto*` accepts: whether it is `-`, and the rest. -/
def scanSign : List Char → Bool × List Char
  | '-' :: t => (true, t)
  | '+' :: t => (false, t)
  | t => (false, t)

/-- The `0x` or `0X` that `strto*` skips in base 16. -/
def skipHexPrefix : List Char → List Char
  | '0' :: 'x' :: t => t
  | '0' :: 'X' :: t => t
  | t => t

/-- `strtoll`/`strtoull` on a whole C string `s`: the sign and the magnitude read, or `none` when
no digit is read or the conversion stops before the end of `s`. -/
def strtoScan (base : Nat) (s : List Char) : Option (Bool × Nat) :=
  let (neg, t) := scanSign (s.dropWhile isspace)
  let t := if base = 16 then skipHexPrefix t else t
  if t = [] then none else (digitsValue base 0 t).map (neg, ·)

/-- The base `parseint.h` passes to `strto*`: 16 for a string starting with `0x`. -/
def parseBase (s : List Char) : Nat :=
  if s.take 2 = ['0', 'x'] then 16 else 10

/-- The signed value `strtoll` returns for a sign and a magnitude. -/
def strtollValue (neg : Bool) (v : Nat) : Int :=
  if neg then -v else v

/-- The value `strtoull` returns for a sign and a magnitude: a negative number wraps around. -/
def strtoullValue (neg : Bool) (v : Nat) : Nat :=
  if neg then (2 ^ 64 - v) % 2 ^ 64 else v

/-- `android::base::ParseInt(s, &out, min, max)` for a 64-bit `long long` conversion. -/
def parseInt (s : List Char) (min max : Int) : Option Int :=
  match strtoScan (parseBase s) s with
  | none => none
  | some (neg, v) =>
    if strtollValue neg v < int64Min ∨ int64Max < strtollValue neg v then none
    else if strtollValue neg v < min ∨ max < strtollValue neg v then none
    else some (strtollValue neg v)

/-- `android::base::ParseUint(s, &out, max)` for a 64-bit `unsigned long long` conversion. -/
def parseUint (s : List Char) (max : Nat) : Option Nat :=
  match strtoScan (parseBase s) s with
  | none => none
  | some (neg, v) =>
    if 2 ^ 64 ≤ v then none
    else if max < strtoullValue neg v then none
    else some (strtoullValue neg v)

theorem parseInt_mem {s : List Char} {min max r : Int} (h : parseInt s min max = some r) :
    min ≤ r ∧ r ≤ max := by
  unfold parseInt at h
  split at h
  · cases h
  · split_ifs at h
    cases h
    omega

theorem parseUint_le {s : List Char} {max r : Nat} (h : parseUint s max = some r) : r ≤ max := by
  unfold parseUint at h
  split at h
  · cases h
  · split_ifs at h
    cases h
    omega

@[simp] theorem parseInt_nil (min max : Int) : parseInt [] min max = none := rfl

@[simp] theorem parseUint_nil (max : Nat) : parseUint [] max = none := rfl

/-! ## Printing -/

/-- `n` printed by `%d`, `%ld` or `std::to_string`. -/
def decimal (n : Int) : List Char :=
  (toString n).toList

theorem isDigit_of_mem_toDigitsCore {c : Char} :
    ∀ {fuel n : Nat} {ds : List Char}, c ∈ Nat.toDigitsCore 10 fuel n ds → c ∈ ds ∨ c.isDigit
  | 0, _, _, h => .inl h
  | fuel + 1, n, ds, h => by
    have hd : (Nat.digitChar (n % 10)).isDigit :=
      (by decide : ∀ k < 10, (Nat.digitChar k).isDigit) _ (Nat.mod_lt _ (by decide))
    simp only [Nat.toDigitsCore] at h
    split at h
    · rcases List.mem_cons.1 h with rfl | h
      · exact .inr hd
      · exact .inl h
    · rcases isDigit_of_mem_toDigitsCore h with h | h
      · rcases List.mem_cons.1 h with rfl | h
        · exact .inr hd
        · exact .inl h
      · exact .inr h

theorem isDigit_of_mem_toDigits {c : Char} {n : Nat} (h : c ∈ Nat.toDigits 10 n) : c.isDigit :=
  (isDigit_of_mem_toDigitsCore h).resolve_left (List.not_mem_nil c)

theorem newline_not_mem_decimal (n : Int) : '\n' ∉ decimal n := by
  intro h
  have hnl : ¬ ('\n').isDigit := by decide
  cases n with
  | ofNat m => exact hnl (isDigit_of_mem_toDigits h)
  | negSucc m =>
    have : decimal (.negSucc m) = '-' :: Nat.toDigits 10 (m + 1) := rfl
    rcases List.mem_cons.1 (this ▸ h) with h | h
    · cases h
    · exact hnl (isDigit_of_mem_toDigits h)

theorem newline_not_mem_append_decimal {pre : List Char} (h : '\n' ∉ pre) (n : Int) :
    '\n' ∉ pre ++ decimal n :=
  fun hm => (List.mem_append.mp hm).elim h (newline_not_mem_decimal n)

/-! ## Reading back what `%d` prints -/

theorem toDigitsCore_append (b : Nat) : ∀ (f n : Nat) (ds : List Char),
    Nat.toDigitsCore b f n ds = Nat.toDigitsCore b f n [] ++ ds
  | 0, _, _ => rfl
  | f + 1, n, ds => by
    simp only [Nat.toDigitsCore]
    split
    · rfl
    · rw [toDigitsCore_append b f _ (_ :: ds), toDigitsCore_append b f _ [_], List.append_assoc]
      rfl

theorem digitsValue_append (base acc : Nat) (xs ys : List Char) :
    digitsValue base acc (xs ++ ys) = (digitsValue base acc xs).bind fun v => digitsValue base v ys := by
  induction xs generalizing acc with
  | nil => rfl
  | cons c xs ih => simp only [List.cons_append, digitsValue, List.append_eq, ih, Option.bind_assoc]

theorem digitValue_digitChar {d : Nat} (h : d < 10) : digitValue 10 (Nat.digitChar d) = some d :=
  (by decide : ∀ d, d < 10 → digitValue 10 (Nat.digitChar d) = some d) d h

/-- `strtoll` reads back the digits `%d` prints. -/
theorem digitsValue_toDigitsCore : ∀ {f n : Nat}, n < f →
    digitsValue 10 0 (Nat.toDigitsCore 10 f n []) = some n
  | f + 1, n, h => by
    have hd := digitValue_digitChar (Nat.mod_lt n (by decide : 10 > 0))
    simp only [Nat.toDigitsCore]
    split
    · simp only [digitsValue, hd, Option.some_bind, Nat.zero_mul, Nat.zero_add, Option.some.injEq]
      omega
    · rw [toDigitsCore_append, digitsValue_append, digitsValue_toDigitsCore (by omega)]
      simp only [digitsValue, hd, Option.some_bind, Option.some.injEq]
      omega

theorem toDigits_ne_nil (n : Nat) : Nat.toDigits 10 n ≠ [] := by
  simp only [Nat.toDigits, Nat.toDigitsCore]
  split
  · exact List.cons_ne_nil _ _
  · rw [toDigitsCore_append]
    simp

theorem dropWhile_isspace_of_forall {s : List Char} (h : ∀ c ∈ s, isspace c = false) :
    s.dropWhile isspace = s := by
  cases s with
  | nil => rfl
  | cons c s => rw [List.dropWhile_cons_of_neg (by simp [h c (.head _)])]

theorem scanSign_of_isDigit {c : Char} (hc : c.isDigit = true) (t : List Char) :
    scanSign (c :: t) = (false, c :: t) := by
  have h1 : c ≠ '-' := fun h => by rw [h] at hc; contradiction
  have h2 : c ≠ '+' := fun h => by rw [h] at hc; contradiction
  simp [scanSign, h1, h2]

theorem isspace_of_isDigit {c : Char} (hc : c.isDigit = true) : isspace c = false := by
  revert hc
  unfold isspace Char.isDigit
  intro hc
  simp only [Bool.or_eq_false_iff, beq_eq_false_iff_ne, ne_eq]
  refine ⟨⟨⟨⟨⟨?_, ?_⟩, ?_⟩, ?_⟩, ?_⟩, ?_⟩ <;> rintro rfl <;> simp at hc

theorem strtoScan_toDigits (m : Nat) : strtoScan 10 (Nat.toDigits 10 m) = some (false, m) := by
  obtain ⟨c, t, ht⟩ := List.exists_cons_of_ne_nil (toDigits_ne_nil m)
  have hdig : ∀ x ∈ Nat.toDigits 10 m, x.isDigit = true := fun x hx => isDigit_of_mem_toDigits hx
  have hval : digitsValue 10 0 (Nat.toDigits 10 m) = some m := digitsValue_toDigitsCore (by omega)
  rw [ht] at hdig hval ⊢
  simp only [strtoScan, dropWhile_isspace_of_forall fun x hx => isspace_of_isDigit (hdig x hx),
    scanSign_of_isDigit (hdig c (.head _))]
  simp [hval]

theorem strtoScan_neg_toDigits (m : Nat) :
    strtoScan 10 ('-' :: Nat.toDigits 10 m) = some (true, m) := by
  have hval : digitsValue 10 0 (Nat.toDigits 10 m) = some m := digitsValue_toDigitsCore (by omega)
  simp only [strtoScan, List.dropWhile_cons_of_neg (by decide : ¬ isspace '-' = true), scanSign]
  simp [hval, toDigits_ne_nil]

theorem parseBase_decimal (n : Int) : parseBase (decimal n) = 10 := by
  have hx : 'x' ∉ decimal n := by
    cases n with
    | ofNat m => exact fun h => absurd (isDigit_of_mem_toDigits h) (by decide)
    | negSucc m =>
      show 'x' ∉ '-' :: Nat.toDigits 10 (m + 1)
      rintro (_ | ⟨_, h⟩)
      exact absurd (isDigit_of_mem_toDigits h) (by decide)
  rw [parseBase, if_neg]
  intro h
  have hmem : 'x' ∈ (decimal n).take 2 := by rw [h]; simp
  exact hx (List.mem_of_mem_take hmem)

/-- **`ParseInt` reads back what `%d` prints**: the number itself within the caller's bounds,
and nothing outside them. -/
theorem parseInt_decimal (n : Int) {lo hi : Int} (hlo : int64Min ≤ lo) (hhi : hi ≤ int64Max) :
    parseInt (decimal n) lo hi = if lo ≤ n ∧ n ≤ hi then some n else none := by
  rw [parseInt, parseBase_decimal]
  cases n with
  | ofNat m =>
    rw [show decimal (.ofNat m) = Nat.toDigits 10 m from rfl, strtoScan_toDigits]
    simp only [strtollValue, Bool.false_eq_true, if_false, Int.ofNat_eq_coe]
    split_ifs <;> first | rfl | omega
  | negSucc m =>
    rw [show decimal (.negSucc m) = '-' :: Nat.toDigits 10 (m + 1) from rfl,
      strtoScan_neg_toDigits]
    simp only [strtollValue, if_true, Int.negSucc_eq]
    split_ifs <;> first | rfl | omega

theorem mem_decimal {n : Int} {c : Char} (h : c ∈ decimal n) : c.isDigit = true ∨ c = '-' := by
  cases n with
  | ofNat m => exact .inl (isDigit_of_mem_toDigits h)
  | negSucc m =>
    rcases List.mem_cons.mp (show c ∈ '-' :: Nat.toDigits 10 (m + 1) from h) with h | h
    · exact .inr h
    · exact .inl (isDigit_of_mem_toDigits h)

theorem trim_decimal (n : Int) : trim (decimal n) = decimal n := by
  have hsp : ∀ c ∈ decimal n, isspace c = false := fun c hc => by
    rcases mem_decimal hc with h | rfl
    · exact isspace_of_isDigit h
    · rfl
  rw [trim, dropWhile_isspace_of_forall hsp, List.rdropWhile_eq_self_iff]
  exact fun hne => by simp [hsp _ (List.getLast_mem hne)]

theorem cStr_decimal (n : Int) : cStr (decimal n) = decimal n :=
  cStr_of_not_mem fun h => by rcases mem_decimal h with h | h <;> revert h <;> decide

end OtaRecovery
