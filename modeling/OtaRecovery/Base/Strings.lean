import Mathlib.Data.List.Basic
import Mathlib.Data.List.DropRight

/-!
# The string helpers of `android::base`

Both programs handle `std::string`s through a few helpers of `android-base/strings.h`. A
`std::string` is a list of bytes, here a `List Char`.

* `split s delimiters` is `Split`: the pieces between the delimiter characters, never none.
  `split_append_of_mem` (a delimiter separates the pieces of both sides) and `split_join`
  (splitting a joined list gives it back) carry the install-log and care-map proofs.
* `trim` is `Trim`, `join` is `Join`, `startsWith` is `StartsWith`.
* `find c s` is `s.find(c)`, and `cStr s` is what `s.c_str()` shows a C function: the bytes
  before the first NUL.
-/

namespace OtaRecovery

/-- `isspace` in the C locale. -/
def isspace (c : Char) : Bool :=
  c == ' ' || c == '\t' || c == '\n' || c == '\x0b' || c == '\x0c' || c == '\r'

/-- `android::base::Trim`: the string without its leading and trailing white space. -/
def trim (s : List Char) : List Char :=
  (s.dropWhile isspace).rdropWhile isspace

/-- `android::base::Split`: the pieces of `s` between the characters of `delimiters`. -/
def split (s delimiters : List Char) : List (List Char) :=
  s.splitOnP (fun c => c ∈ delimiters)

/-- `android::base::Join`: the pieces with `separator` between them. -/
def join (pieces : List (List Char)) (separator : List Char) : List Char :=
  separator.intercalate pieces

/-- `android::base::StartsWith`. -/
def startsWith (s pre : List Char) : Bool :=
  pre.isPrefixOf s

/-- `s.find(c)`: the index of the first `c` in `s`. -/
def find (c : Char) : List Char → Option Nat
  | [] => none
  | a :: s => if a = c then some 0 else (find c s).map (· + 1)

/-- What `s.c_str()` shows a C function: the bytes before the first NUL. -/
def cStr (s : List Char) : List Char :=
  s.takeWhile (· ≠ '\x00')

@[simp] theorem trim_nil : trim [] = [] := rfl

@[simp] theorem cStr_nil : cStr [] = [] := rfl

theorem cStr_of_not_mem {s : List Char} (h : '\x00' ∉ s) : cStr s = s :=
  List.takeWhile_eq_self_iff.2 fun c hc => by
    have : c ≠ '\x00' := fun e => h (e ▸ hc)
    simpa using this

/-! ## `split` -/

section Split

variable {ds : List Char}

@[simp] theorem split_nil : split [] ds = [[]] := rfl

theorem split_ne_nil (s ds : List Char) : split s ds ≠ [] :=
  List.splitOnP_ne_nil _ _

theorem split_cons_of_mem {c : Char} (s : List Char) (h : c ∈ ds) :
    split (c :: s) ds = [] :: split s ds := by
  simp [split, List.splitOnP_cons, h]

theorem split_cons_of_not_mem {c : Char} (s : List Char) (h : c ∉ ds) :
    split (c :: s) ds = (split s ds).modifyHead (c :: ·) := by
  simp [split, List.splitOnP_cons, h]

theorem split_eq_singleton {s : List Char} (h : ∀ c ∈ s, c ∉ ds) : split s ds = [s] :=
  List.splitOnP_eq_single _ _ (by simpa using h)

/-- Every character of a piece is a character of the text. -/
theorem mem_of_mem_split {c : Char} {l : List Char} :
    ∀ {s : List Char}, l ∈ split s ds → c ∈ l → c ∈ s
  | [], hl, hc => by simp_all
  | a :: s, hl, hc => by
    by_cases ha : a ∈ ds
    · rw [split_cons_of_mem _ ha, List.mem_cons] at hl
      rcases hl with rfl | hl
      · cases hc
      · exact List.mem_cons_of_mem _ (mem_of_mem_split hl hc)
    · obtain ⟨x, xs, hx⟩ := List.exists_cons_of_ne_nil (split_ne_nil s ds)
      rw [split_cons_of_not_mem _ ha, hx, List.modifyHead_cons, List.mem_cons] at hl
      rcases hl with rfl | hl
      · rcases List.mem_cons.mp hc with rfl | hc
        · exact List.mem_cons_self _ _
        · exact List.mem_cons_of_mem _ (mem_of_mem_split (hx ▸ List.mem_cons_self x xs) hc)
      · exact List.mem_cons_of_mem _ (mem_of_mem_split (hx ▸ List.mem_cons_of_mem x hl) hc)

/-- A delimiter separates the pieces of the text before it from those of the text after it. -/
theorem split_append_of_mem {d : Char} (hd : d ∈ ds) (a b : List Char) :
    split (a ++ d :: b) ds = split a ds ++ split b ds := by
  induction a with
  | nil => simp [split_cons_of_mem _ hd]
  | cons c a ih =>
    by_cases hc : c ∈ ds
    · simp [split_cons_of_mem _ hc, ih]
    · obtain ⟨x, xs, hx⟩ := List.exists_cons_of_ne_nil (split_ne_nil a ds)
      rw [List.cons_append, split_cons_of_not_mem _ hc, split_cons_of_not_mem _ hc, ih, hx]
      rfl

/-- Text with no delimiter in it joins the first piece of the text after it. -/
theorem split_append_of_forall_not_mem {a : List Char} (h : ∀ c ∈ a, c ∉ ds) (b : List Char) :
    split (a ++ b) ds = (split b ds).modifyHead (a ++ ·) := by
  obtain ⟨x, xs, hx⟩ := List.exists_cons_of_ne_nil (split_ne_nil b ds)
  induction a with
  | nil => rw [List.nil_append, hx]; rfl
  | cons c a ih =>
    rw [List.cons_append, split_cons_of_not_mem _ (h c (.head _)),
      ih fun y hy => h y (.tail _ hy), hx]
    rfl

/-- **Splitting undoes joining**, when no piece holds a delimiter. -/
theorem split_join {d : Char} (hd : d ∈ ds) :
    ∀ {ls : List (List Char)}, ls ≠ [] → (∀ l ∈ ls, ∀ c ∈ l, c ∉ ds) →
      split (join ls [d]) ds = ls
  | [l], _, h => by simpa [join, List.intercalate] using split_eq_singleton (h l (by simp))
  | l :: l' :: ls, _, h => by
    have hj : join (l :: l' :: ls) [d] = l ++ d :: join (l' :: ls) [d] := by
      simp [join, List.intercalate, List.intersperse_cons₂]
    rw [hj, split_append_of_mem hd, split_eq_singleton (h l (by simp)),
      split_join hd (List.cons_ne_nil _ _) (fun l hl => h l (List.mem_cons_of_mem _ hl))]
    rfl

end Split

@[simp] theorem startsWith_append_self (s t : List Char) : startsWith (s ++ t) s := by
  simp [startsWith]

/-! ## `trim` -/

section Trim

variable (p : Char → Bool)

theorem rdropWhile_append_cons {a : Char} (ha : ¬ p a) (l r : List Char) :
    (l ++ a :: r).rdropWhile p = l ++ a :: r.rdropWhile p := by
  simp only [List.rdropWhile, List.reverse_append, List.reverse_cons, List.append_assoc,
    List.singleton_append, List.dropWhile_append]
  split <;> simp_all [List.dropWhile_cons_of_neg]

theorem rdropWhile_cons_of_ne_nil (a : Char) {r : List Char} (h : r.rdropWhile p ≠ []) :
    (a :: r).rdropWhile p = a :: r.rdropWhile p := by
  have h' : (List.dropWhile p r.reverse).isEmpty = false := by
    simpa [List.rdropWhile] using h
  simp [List.rdropWhile, List.dropWhile_append, h']

theorem dropWhile_rdropWhile (l : List Char) :
    (l.rdropWhile p).dropWhile p = (l.dropWhile p).rdropWhile p := by
  induction l with
  | nil => simp
  | cons a l ih =>
    by_cases ha : p a
    · rw [List.dropWhile_cons_of_pos ha, ← ih]
      by_cases h : l.rdropWhile p = []
      · have : (a :: l).rdropWhile p = [] := by
          simp only [List.rdropWhile_eq_nil_iff, List.mem_cons] at h ⊢
          rintro x (rfl | hx) <;> simp_all
        simp [this, h]
      · rw [rdropWhile_cons_of_ne_nil p a h, List.dropWhile_cons_of_pos ha]
    · have h := rdropWhile_append_cons p ha [] l
      simp only [List.nil_append] at h
      rw [List.dropWhile_cons_of_neg ha, h, List.dropWhile_cons_of_neg ha]

end Trim

theorem trim_rdropWhile (v : List Char) : trim (v.rdropWhile isspace) = trim v := by
  rw [trim, dropWhile_rdropWhile, List.rdropWhile_idempotent, trim]

/-- Trimming a line that starts with a non-blank key and a non-blank separator trims only the
end of what follows. -/
theorem trim_cons_append_cons {a c : Char} (ha : ¬ isspace a) (hc : ¬ isspace c)
    (k v : List Char) : trim (a :: k ++ c :: v) = a :: k ++ c :: v.rdropWhile isspace := by
  rw [trim, List.cons_append, List.dropWhile_cons_of_neg ha, ← List.cons_append,
    rdropWhile_append_cons _ hc]

/-! ## `find` -/

theorem find_eq_none {c : Char} : ∀ {s : List Char}, find c s = none ↔ c ∉ s
  | [] => by simp [find]
  | a :: s => by
    by_cases h : a = c
    · simp [find, h]
    · simp [find, h, find_eq_none, Ne.symm h]

theorem find_append_cons {c : Char} {k : List Char} (hk : c ∉ k) (v : List Char) :
    find c (k ++ c :: v) = some k.length := by
  induction k with
  | nil => simp [find]
  | cons a k ih =>
    have ha : a ≠ c := fun h => hk (h ▸ List.mem_cons_self a k)
    simp [find, ha, ih (fun h => hk (List.mem_cons_of_mem a h))]

/-- Where `find` stops, the string is the text before the first `c`, then `c`, then the rest. -/
theorem find_eq_some {c : Char} : ∀ {s : List Char} {i : Nat}, find c s = some i →
    s = s.take i ++ c :: s.drop (i + 1) ∧ c ∉ s.take i
  | [], _, h => by simp [find] at h
  | a :: s, i, h => by
    by_cases ha : a = c
    · simp only [find, ha, if_true, Option.some.injEq] at h
      subst h ha
      simp
    · simp only [find, ha, if_false, Option.map_eq_some'] at h
      obtain ⟨j, hj, rfl⟩ := h
      obtain ⟨h1, h2⟩ := find_eq_some hj
      refine ⟨?_, ?_⟩
      · conv_lhs => rw [h1]
        simp
      · simp [h2, Ne.symm ha]

end OtaRecovery
