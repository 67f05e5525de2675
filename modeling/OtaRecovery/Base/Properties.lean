import OtaRecovery.Base.ParseInt

/-!
# System properties

Both programs read the device's system properties through `libcutils`. The property store is
a list of keys with their values.

* `propertyGet props key dflt` is `property_get` read back as a C string: the value, or `dflt`
  when the key is unset or empty.
* `propertyGetInt64 props key dflt` is `property_get_int64`: `strtoimax` in base 0 on the
  value, trailing text allowed, with `dflt` when the key is unset or empty, no digit is read or
  the number leaves the 64-bit range (`propertyGetInt64_of_lookup_eq_none`).
-/

namespace OtaRecovery

/-- The system properties: each key with its value. -/
abbrev Props := List (List Char × List Char)

/-- `property_get(key, value, dflt)`, the buffer `value` read as a C string. -/
def propertyGet (props : Props) (key dflt : List Char) : List Char :=
  match props.lookup key with
  | some v => if v = [] then cStr dflt else cStr v
  | none => cStr dflt

/-- The leading digits of `s` in `base`, read onto `acc`: `strto*` stops at the first
non-digit. -/
def leadingValue (base : Nat) : Nat → List Char → Nat
  | acc, [] => acc
  | acc, c :: s =>
    match digitValue base c with
    | some d => leadingValue base (acc * base + d) s
    | none => acc

/-- `strtoimax(s, &end, 0)`: `none` when it reads no digit (`end == s`), else the value,
unbounded. A leading `0x` selects base 16 (with no hex digit after it, the `0` alone is read)
and a leading `0` base 8. -/
def strtoimaxBase0 (s : List Char) : Option Int :=
  let (neg, t) := scanSign (s.dropWhile isspace)
  match t with
  | '0' :: c :: u =>
    if c = 'x' ∨ c = 'X' then some (strtollValue neg (leadingValue 16 0 u))
    else some (strtollValue neg (leadingValue 8 0 (c :: u)))
  | c :: u =>
    if (digitValue 10 c).isSome then some (strtollValue neg (leadingValue 10 0 (c :: u)))
    else none
  | [] => none

/-- `property_get_int64(key, dflt)`. -/
def propertyGetInt64 (props : Props) (key : List Char) (dflt : Int) : Int :=
  match propertyGet props key [] with
  | [] => dflt
  | buf =>
    match strtoimaxBase0 buf with
    | none => dflt
    | some r => if r < int64Min ∨ int64Max < r then dflt else r

theorem propertyGet_of_lookup_eq_none {props : Props} {key : List Char} (dflt : List Char)
    (h : props.lookup key = none) : propertyGet props key dflt = cStr dflt := by
  simp [propertyGet, h]

/-- An unset property reads as the default. -/
theorem propertyGetInt64_of_lookup_eq_none {props : Props} {key : List Char} (dflt : Int)
    (h : props.lookup key = none) : propertyGetInt64 props key dflt = dflt := by
  simp [propertyGetInt64, propertyGet_of_lookup_eq_none _ h, cStr]

example : propertyGetInt64 [("ro.build.date.utc".toList, "0x10 ".toList)]
    "ro.build.date.utc".toList 7 = 16 := by decide

end OtaRecovery
