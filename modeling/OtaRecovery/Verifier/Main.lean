import OtaRecovery.Verifier.ReadBlocks

/-!
# The care map and `main` of `update_verifier`

On the first boot of a slot after an A/B update, `main` checks that dm-verity is enforcing,
reads every block the care map lists and only then marks the slot as booted successfully.

* `verifyLines` is the loop of `verify_image` over the line pairs of the care map, indexing the
  vector of lines as the code does; `verifyImage` reads the care map and runs it.
* `careMapRanges` is the grammar of a care map, stated on its own, and `scanOps` the calls that
  read what it lists: for each device its open and, for each range, a seek and a read.
* `verifyImage_eq_true_iff` says what `verify_image` reads when it returns `true`.
* `main_cases` says everything `main` can do; `main_marked` follows from it (when `main` calls
  `markBootSuccessful`), and so does `main_exitCode` (what its exit code means, and that it
  touches a block device only when dm-verity is enforcing).
* `verifyImage_eq_runOps` lifts the plan of `read_blocks` to the care map: `main_scans_plan` says
  that on a well-formed care map `main` is `runOps` on the care map's plan, and
  `main_stops_at_failure` that on any care map it makes no call after a failed one.
* `main_marks_iff` says exactly when `main` marks the slot.
-/

namespace OtaRecovery

/-- The care map as `verify_image` finds it. -/
inductive CareMap
  /-- `open` fails: the device was flashed before this boot and has none. -/
  | missing
  /-- `ReadFdToString` fails. -/
  | unreadable
  /-- The contents of the file. -/
  | contents (text : List Char)
  deriving DecidableEq, Repr

/-- The loop `for (size_t i = 0; i < lines.size(); i += 2)` of `verify_image`, from index `i`,
for at most `fuel` turns. -/
def verifyLines (props : Props) (io : Io) (lines : List (List Char)) :
    Nat → Nat → List IoOp → Except VerifierFault (Bool × List IoOp)
  | 0, _, trace => .ok (true, trace)
  | fuel + 1, i, trace =>
    if i < lines.length then
      match lines[i]?, lines[i + 1]? with
      | some blkDevicePrefix, some rangeStr =>
        (readBlocks props io trace blkDevicePrefix rangeStr).bind fun r =>
          if !r.1 then .ok (false, r.2) else verifyLines props io lines fuel (i + 2) r.2
      | _, _ => .error .outOfRange
    else .ok (true, trace)

/-- `verify_image(CARE_MAP_FILE)`: whether it returns `true`, and the calls made. -/
def verifyImage (props : Props) (io : Io) (careMap : CareMap) :
    Except VerifierFault (Bool × List IoOp) :=
  match careMap with
  | .missing => .ok (true, [])
  | .unreadable => .ok (false, [])
  | .contents fileContent =>
    let lines := split (trim fileContent) ['\n']
    if lines.length ≠ 2 ∧ lines.length ≠ 4 then .ok (false, [])
    else verifyLines props io lines lines.length 0 []

/-- `BoolResult` of the boot control HAL. -/
inductive BoolResult
  | false
  | true
  | invalidSlot
  deriving DecidableEq, Repr

/-- The boot control module as `main` meets it: whether `getService` finds it, the current slot,
what `isSlotMarkedSuccessful` answers for each slot, and whether `markBootSuccessful` reports
success. -/
structure BootControl where
  available : Bool
  currentSlot : Nat
  isSlotMarkedSuccessful : Nat → BoolResult
  markOk : Bool

/-- `strcasecmp(a, b) == 0` on C strings. -/
def equalsIgnoreCase (a b : List Char) : Bool :=
  a.map Char.toLower == b.map Char.toLower

/-- What `main` leaves: its exit code, the calls it made on the block devices, and whether it
called `markBootSuccessful`, which it does after all of them. -/
structure VerifierOutcome where
  exitCode : Int
  trace : List IoOp
  marked : Bool
  deriving DecidableEq, Repr

/-- `main` of `update_verifier`. `property_get` returns the length of what it copies, so its test
against `-1` is kept as the code has it. -/
def main (boot : BootControl) (props : Props) (io : Io) (careMap : CareMap) :
    Except VerifierFault VerifierOutcome :=
  if !boot.available then .ok ⟨-1, [], false⟩
  else if boot.isSlotMarkedSuccessful boot.currentSlot = .false then
    let verityMode := propertyGet props "ro.boot.veritymode".toList []
    if (verityMode.length : Int) = -1 then .ok ⟨-1, [], false⟩
    else if equalsIgnoreCase verityMode "eio".toList then .ok ⟨-1, [], false⟩
    else if verityMode ≠ "enforcing".toList then .ok ⟨-1, [], false⟩
    else
      (verifyImage props io careMap).map fun r =>
        if !r.1 then ⟨-1, r.2, false⟩ else ⟨if boot.markOk then 0 else -1, r.2, true⟩
  else .ok ⟨0, [], false⟩

/-! ## The grammar of a care map -/

/-- The line pairs of a list of lines, each device with the ranges of its range string, when
every range string is well formed. -/
def linePairs : List (List Char) → Option (List (List Char × List (Nat × Nat)))
  | [] => some []
  | [_] => none
  | d :: s :: rest => (rangePairs s).bind fun pairs => (linePairs rest).map ((d, pairs) :: ·)

/-- The devices and ranges of a well-formed care map: `Split(Trim(text), "\n")` has two or four
lines, and every range string in it is well formed. -/
def careMapRanges (text : List Char) : Option (List (List Char × List (Nat × Nat))) :=
  let lines := split (trim text) ['\n']
  if lines.length = 2 ∨ lines.length = 4 then linePairs lines else none

/-- A well-formed care map, in the words of its grammar: `Split(Trim(text), "\n")` has two or
four lines and every line at an odd index is a well-formed range string. -/
def WellFormedCareMap (text : List Char) : Prop :=
  ((split (trim text) ['\n']).length = 2 ∨ (split (trim text) ['\n']).length = 4) ∧
    ∀ i (hi : i < (split (trim text) ['\n']).length), i % 2 = 1 →
      (rangePairs (split (trim text) ['\n'])[i]).isSome

instance (text : List Char) : Decidable (WellFormedCareMap text) :=
  inferInstanceAs (Decidable (_ ∧ _))

/-- The calls that scan what a care map lists: for each device, its open and, for each range in
order, the seek to its first block and the read of `size` bytes. -/
def scanOps (props : Props) (size : Nat → Nat → Nat) (ranges : List (List Char × List (Nat × Nat))) :
    List IoOp :=
  ranges.flatMap fun r =>
    .openDevice (blkDevice props r.1) :: r.2.flatMap (pairOps (blkDevice props r.1) size)

@[simp] theorem scanOps_nil (props : Props) (size : Nat → Nat → Nat) : scanOps props size [] = [] :=
  rfl

@[simp] theorem scanOps_cons (props : Props) (size : Nat → Nat → Nat) (d : List Char)
    (pairs : List (Nat × Nat)) (rest : List (List Char × List (Nat × Nat))) :
    scanOps props size ((d, pairs) :: rest) =
      .openDevice (blkDevice props d) :: pairs.flatMap (pairOps (blkDevice props d) size) ++
        scanOps props size rest :=
  rfl

theorem allAnswered_scanOps_cons (io : Io) (trace : List IoOp) (props : Props)
    (size : Nat → Nat → Nat) (d : List Char) (pairs : List (Nat × Nat))
    (rest : List (List Char × List (Nat × Nat))) :
    allAnswered io trace (scanOps props size ((d, pairs) :: rest)) =
      (allAnswered io trace (.openDevice (blkDevice props d) ::
          pairs.flatMap (pairOps (blkDevice props d) size)) &&
        allAnswered io (trace ++ .openDevice (blkDevice props d) ::
          pairs.flatMap (pairOps (blkDevice props d) size)) (scanOps props size rest)) := by
  rw [scanOps_cons, allAnswered_append]

/-! ## The loop, over the list of lines -/

/-- The loop of `verify_image` read over the lines, two at a time. -/
def scanLines (props : Props) (io : Io) :
    List (List Char) → List IoOp → Except VerifierFault (Bool × List IoOp)
  | d :: s :: rest, trace =>
    (readBlocks props io trace d s).bind fun r =>
      if !r.1 then .ok (false, r.2) else scanLines props io rest r.2
  | _, trace => .ok (true, trace)

/-- **The indexed loop is the loop over the lines.** From an even index of a vector of even
length, with enough turns, `verifyLines` never indexes past the end and computes `scanLines`. -/
theorem verifyLines_eq_scanLines (props : Props) (io : Io) {lines : List (List Char)}
    (heven : lines.length % 2 = 0) :
    ∀ (fuel i : Nat) (trace : List IoOp), i % 2 = 0 → lines.length ≤ i + 2 * fuel →
      verifyLines props io lines fuel i trace = scanLines props io (lines.drop i) trace := by
  intro fuel
  induction fuel with
  | zero =>
    intro i trace _ hlen
    rw [List.drop_eq_nil_of_le (by omega)]
    rfl
  | succ fuel ih =>
    intro i trace hi hlen
    by_cases hlt : i < lines.length
    · have hlt' : i + 1 < lines.length := by omega
      rw [List.drop_eq_getElem_cons hlt, List.drop_eq_getElem_cons hlt']
      simp only [verifyLines, hlt, if_true, List.getElem?_eq_getElem hlt,
        List.getElem?_eq_getElem hlt', scanLines, ih (i + 2) _ (by omega) (by omega)]
    · rw [List.drop_eq_nil_of_le (by omega)]
      simp [verifyLines, hlt, scanLines]

/-- The loop over the lines never faults. -/
theorem scanLines_ok (props : Props) (io : Io) :
    ∀ (lines : List (List Char)) (trace : List IoOp), ∃ r, scanLines props io lines trace = .ok r
  | d :: s :: rest, trace => by
    obtain ⟨r, hr⟩ := readBlocks_ok props io trace d s
    simp only [scanLines, hr, Except.bind]
    split_ifs
    · exact ⟨_, rfl⟩
    · exact scanLines_ok props io rest r.2
  | [], _ | [_], _ => ⟨_, rfl⟩

/-- **What the loop over the lines reads.** Over an even number of lines it returns `true`
exactly when every range string is well formed and every open, seek and read succeeds; the calls
are then those of `scanOps`, in order. -/
theorem scanLines_eq_true_iff (props : Props) (io : Io) :
    ∀ (lines : List (List Char)), lines.length % 2 = 0 → ∀ (trace t : List IoOp),
      scanLines props io lines trace = .ok (true, t) ↔
        ∃ ranges, linePairs lines = some ranges ∧
          allAnswered io trace (scanOps props readSize ranges) ∧
          t = trace ++ scanOps props readSize ranges
  | [], _, trace, t => by
    simp only [scanLines, linePairs, Except.ok.injEq, Prod.mk.injEq, true_and, Option.some.injEq,
      exists_eq_left', scanOps_nil, allAnswered_nil, List.append_nil]
    exact eq_comm
  | [_], h, _, _ => by simp at h
  | d :: s :: rest, h, trace, t => by
    have ih := scanLines_eq_true_iff props io rest (by simp only [List.length_cons] at h; omega)
    obtain ⟨⟨b, t₁⟩, hr⟩ := readBlocks_ok props io trace d s
    have hb := readBlocks_eq_true_iff props io trace d s
    simp only [hr, Except.ok.injEq, Prod.mk.injEq, true_and] at hb
    simp only [scanLines, hr, Except.bind, linePairs, Option.bind_eq_some, Option.map_eq_some']
    cases b with
    | false =>
      simp only [Bool.not_false, if_true, Except.ok.injEq, Prod.mk.injEq, Bool.false_eq_true,
        false_and, false_iff, not_exists, not_and]
      rintro _ ⟨pairs, hp, rs, -, rfl⟩ ha -
      rw [allAnswered_scanOps_cons, Bool.and_eq_true] at ha
      have := (hb _).mpr ⟨pairs, hp, ha.1, rfl⟩
      simp at this
    | true =>
      obtain ⟨pairs, hp, ha, rfl⟩ := (hb t₁).mp ⟨rfl, rfl⟩
      simp only [Bool.not_true, Bool.false_eq_true, if_false, ih]
      constructor
      · rintro ⟨rs, hrs, ha', rfl⟩
        exact ⟨(d, pairs) :: rs, ⟨pairs, hp, rs, hrs, rfl⟩,
          by rw [allAnswered_scanOps_cons, ha, ha', Bool.and_true], by simp⟩
      · rintro ⟨_, ⟨p', hp', rs, hrs, rfl⟩, ha', rfl⟩
        obtain rfl : p' = pairs := Option.some.inj (hp'.symm.trans hp)
        rw [allAnswered_scanOps_cons, Bool.and_eq_true] at ha'
        exact ⟨rs, hrs, ha'.2, by simp⟩

/-- **The loop over the lines runs a plan.** On any lines the loop makes the calls of a plan,
stopping at the first failing call, and answers `false` as well when it meets a malformed range
string; on well-formed line pairs the plan is `scanOps`, and nothing else fails. -/
theorem scanLines_eq_runOps (props : Props) (io : Io) :
    ∀ (lines : List (List Char)) (trace : List IoOp), ∃ ops ok,
      scanLines props io lines trace =
        .ok ((runOps io trace ops).1 && ok, (runOps io trace ops).2) ∧
      ∀ ranges, linePairs lines = some ranges → ops = scanOps props readSize ranges ∧ ok = true
  | d :: s :: rest, trace => by
    obtain ⟨ops₁, ok₁, hr, hp₁⟩ := readBlocks_eq_runOps props io trace d s
    obtain ⟨ops₂, ok₂, hs, hp₂⟩ := scanLines_eq_runOps props io rest (runOps io trace ops₁).2
    -- the next line pair runs only when this one read every range and its string was well formed
    refine ⟨if ok₁ then ops₁ ++ ops₂ else ops₁, ok₁ && ok₂, ?_, fun ranges hl => ?_⟩
    · simp only [scanLines, hr, Except.bind]
      cases ok₁ <;> cases h₁ : (runOps io trace ops₁).1 <;> simp [runOps_append, h₁, hs]
    · simp only [linePairs, Option.bind_eq_some, Option.map_eq_some'] at hl
      obtain ⟨pairs, hps, rs, hrs, rfl⟩ := hl
      obtain ⟨rfl, rfl⟩ := hp₁ pairs hps
      obtain ⟨rfl, rfl⟩ := hp₂ rs hrs
      simp
  | [], trace | [_], trace => ⟨[], true, rfl, by simp [linePairs]⟩

/-- The line pairs are well formed exactly when every line at an odd index is. -/
theorem linePairs_isSome_iff :
    ∀ (lines : List (List Char)), lines.length % 2 = 0 →
      ((linePairs lines).isSome ↔
        ∀ i (hi : i < lines.length), i % 2 = 1 → (rangePairs lines[i]).isSome)
  | [], _ => by simp [linePairs]
  | [_], h => by simp at h
  | d :: s :: rest, h => by
    have ih := linePairs_isSome_iff rest (by simp only [List.length_cons] at h; omega)
    rw [linePairs]
    cases hs : rangePairs s with
    | none =>
      simp only [Option.none_bind, Option.isSome_none, Bool.false_eq_true, false_iff, not_forall]
      exact ⟨1, by simp, rfl, by simp [hs]⟩
    | some pairs =>
      simp only [Option.some_bind, Option.isSome_map', ih]
      constructor
      · intro hall i hi hodd
        match i, hi, hodd with
        | 1, _, _ => simp [hs]
        | j + 2, hj, hodd => exact hall j (by simpa using hj) (by omega)
      · intro hall j hj hodd
        exact hall (j + 2) (by simpa using hj) (by omega)

/-- `verify_image` never indexes past the end of its vector of lines. -/
theorem verifyImage_ok (props : Props) (io : Io) (careMap : CareMap) :
    ∃ r, verifyImage props io careMap = .ok r := by
  cases careMap with
  | missing | unreadable => exact ⟨_, rfl⟩
  | contents text =>
    simp only [verifyImage]
    split_ifs with h
    · exact ⟨_, rfl⟩
    · rw [verifyLines_eq_scanLines props io (by omega) _ 0 [] rfl (by omega)]
      exact scanLines_ok props io _ []

/-- **What `verify_image` reads.** It returns `true` exactly when the care map is missing, having
read nothing, or when it is well formed and every open, seek and read of what it lists succeeds;
the calls it made are then those of `scanOps`, in order. -/
theorem verifyImage_eq_true_iff (props : Props) (io : Io) (careMap : CareMap) (t : List IoOp) :
    verifyImage props io careMap = .ok (true, t) ↔
      careMap = .missing ∧ t = [] ∨
        ∃ text ranges, careMap = .contents text ∧ careMapRanges text = some ranges ∧
          allAnswered io [] (scanOps props readSize ranges) ∧ t = scanOps props readSize ranges := by
  cases careMap with
  | missing =>
    simp only [verifyImage, Except.ok.injEq, Prod.mk.injEq, true_and, reduceCtorEq, false_and,
      exists_false, or_false]
    exact eq_comm
  | unreadable => simp [verifyImage]
  | contents text =>
    simp only [verifyImage, careMapRanges, reduceCtorEq, false_and, CareMap.contents.injEq,
      exists_eq_left', false_or]
    by_cases h : (split (trim text) ['\n']).length = 2 ∨ (split (trim text) ['\n']).length = 4
    · rw [if_neg (by omega), verifyLines_eq_scanLines props io (by omega) _ 0 [] rfl (by omega),
        List.drop_zero, scanLines_eq_true_iff props io _ (by omega)]
      simp [h]
    · rw [if_pos (by omega)]
      simp [h]

/-- **`verify_image` runs a plan.** On any care map it makes the calls of a plan, stopping at
the first failing call, and answers `false` as well when the care map is unreadable or malformed;
on a well-formed care map the plan is `scanOps` of its ranges, and nothing else fails. -/
theorem verifyImage_eq_runOps (props : Props) (io : Io) (careMap : CareMap) :
    ∃ ops ok,
      verifyImage props io careMap = .ok ((runOps io [] ops).1 && ok, (runOps io [] ops).2) ∧
      ∀ text ranges, careMap = .contents text → careMapRanges text = some ranges →
        ops = scanOps props readSize ranges ∧ ok = true := by
  cases careMap with
  | missing => exact ⟨[], true, rfl, fun _ _ h => by cases h⟩
  | unreadable => exact ⟨[], false, rfl, fun _ _ h => by cases h⟩
  | contents text =>
    by_cases h : (split (trim text) ['\n']).length = 2 ∨ (split (trim text) ['\n']).length = 4
    · obtain ⟨ops, ok, hs, hp⟩ := scanLines_eq_runOps props io (split (trim text) ['\n']) []
      refine ⟨ops, ok, ?_, fun t ranges ht hr => ?_⟩
      · simp only [verifyImage]
        rw [if_neg (by omega), verifyLines_eq_scanLines props io (by omega) _ 0 [] rfl (by omega),
          List.drop_zero, hs]
      · cases ht
        simp only [careMapRanges, if_pos h] at hr
        exact hp ranges hr
    · refine ⟨[], false, ?_, fun t ranges ht hr => ?_⟩
      · simp only [verifyImage]
        rw [if_pos (by omega)]
        rfl
      · cases ht
        simp only [careMapRanges, if_neg h] at hr
        cases hr

theorem careMapRanges_isSome_iff (text : List Char) :
    (careMapRanges text).isSome ↔ WellFormedCareMap text := by
  simp only [careMapRanges, WellFormedCareMap]
  split_ifs with h
  · rw [linePairs_isSome_iff _ (by omega)]
    exact ⟨fun hall => ⟨h, hall⟩, fun hw => hw.2⟩
  · simp [h]

/-- When every call succeeds, `verify_image` on a care map it reads returns whether the care map
is well formed. -/
theorem verifyImage_contents_allOk (props : Props) (text : List Char) :
    ∃ t, verifyImage props allOk (.contents text) = .ok (decide (WellFormedCareMap text), t) := by
  obtain ⟨⟨b, t⟩, h⟩ := verifyImage_ok props allOk (.contents text)
  have hiff := verifyImage_eq_true_iff props allOk (.contents text)
  cases b with
  | true =>
    obtain ⟨_, ranges, ⟨⟩, hr, -⟩ := ((hiff t).mp h).resolve_left (by simp)
    exact ⟨t, by rw [h, decide_eq_true ((careMapRanges_isSome_iff text).mp (by simp [hr]))]⟩
  | false =>
    have hw : ¬ WellFormedCareMap text := fun hw => by
      obtain ⟨ranges, hr⟩ := Option.isSome_iff_exists.mp ((careMapRanges_isSome_iff text).mpr hw)
      have := (hiff _).mpr (.inr ⟨text, ranges, rfl, hr, allAnswered_allOk _ _, rfl⟩)
      rw [h] at this
      cases this
    exact ⟨t, by rw [h, decide_eq_false hw]⟩

/-- Everything `main` can do. When the boot control is found, the slot is reported `FALSE` and
dm-verity is enforcing, it runs `verify_image`, marks the slot exactly when that returned `true`,
and exits `0` exactly when it marked the slot and the marking succeeded. Otherwise it touches no
block device, does not mark the slot, and exits `0` exactly when the boot control is found and the
slot is not reported `FALSE`. -/
theorem main_cases (boot : BootControl) (props : Props) (io : Io) (careMap : CareMap) :
    ∃ out, main boot props io careMap = .ok out ∧
      ((boot.available ∧ boot.isSlotMarkedSuccessful boot.currentSlot = .false ∧
          propertyGet props "ro.boot.veritymode".toList [] = "enforcing".toList ∧
          verifyImage props io careMap = .ok (out.marked, out.trace) ∧
          out.exitCode = if out.marked ∧ boot.markOk then 0 else -1) ∨
        (¬ (boot.available ∧ boot.isSlotMarkedSuccessful boot.currentSlot = .false ∧
            propertyGet props "ro.boot.veritymode".toList [] = "enforcing".toList) ∧
          out.trace = [] ∧ out.marked = false ∧
          out.exitCode =
            if boot.available ∧ boot.isSlotMarkedSuccessful boot.currentSlot ≠ .false then 0
            else -1)) := by
  obtain ⟨⟨b, t⟩, hv⟩ := verifyImage_ok props io careMap
  by_cases h1 : boot.available = true; swap
  · refine ⟨⟨-1, [], false⟩, ?_, .inr ⟨fun h => h1 h.1, rfl, rfl, by simp [h1]⟩⟩
    rw [main, if_pos (by simpa using h1)]
  by_cases h2 : boot.isSlotMarkedSuccessful boot.currentSlot = .false; swap
  · refine ⟨⟨0, [], false⟩, ?_, .inr ⟨fun h => h2 h.2.1, rfl, rfl, by simp [h1, h2]⟩⟩
    rw [main, if_neg (by simp [h1]), if_neg h2]
  by_cases h3 : propertyGet props "ro.boot.veritymode".toList [] = "enforcing".toList; swap
  · refine ⟨⟨-1, [], false⟩, ?_, .inr ⟨fun h => h3 h.2.2, rfl, rfl, by simp [h2]⟩⟩
    rw [main, if_neg (by simp [h1]), if_pos h2]
    simp only [h3, ne_eq, not_false_eq_true, if_true, ite_self]
  refine ⟨⟨if b ∧ boot.markOk then 0 else -1, t, b⟩, ?_, .inl ⟨h1, h2, h3, hv, rfl⟩⟩
  rw [main, if_neg (by simp [h1]), if_pos h2]
  simp only [h3, hv]
  cases b <;> cases boot.markOk <;> rfl

/-- When `main` marks the slot, the boot control module was found, the slot had not booted
successfully, dm-verity is enforcing, and `verify_image` returned `true` after the calls made. -/
theorem main_marked {boot : BootControl} {props : Props} {io : Io} {careMap : CareMap}
    {out : VerifierOutcome} (h : main boot props io careMap = .ok out) (hm : out.marked = true) :
    boot.available = true ∧ boot.isSlotMarkedSuccessful boot.currentSlot = .false ∧
      propertyGet props "ro.boot.veritymode".toList [] = "enforcing".toList ∧
      verifyImage props io careMap = .ok (true, out.trace) := by
  obtain ⟨o, ho, ⟨h1, h2, h3, hv, -⟩ | ⟨-, -, hf, -⟩⟩ := main_cases boot props io careMap <;>
    rw [h] at ho <;> cases ho
  · exact ⟨h1, h2, h3, hm ▸ hv⟩
  · exact absurd hm (by simp [hf])

/-- On ranges narrower than `2 ^ 20` blocks the 32-bit read size is exact. -/
theorem scanOps_readSize_of_narrow (props : Props) {ranges : List (List Char × List (Nat × Nat))}
    (h : ∀ r ∈ ranges, ∀ p ∈ r.2, p.2 - p.1 < 2 ^ 20) :
    scanOps props readSize ranges = scanOps props (fun a b => (b - a) * blockSize) ranges := by
  refine List.flatMap_congr fun r hr => ?_
  rw [List.flatMap_congr fun p hp => ?_]
  have := h r hr p hp
  simp only [pairOps, readSize, blockSize]
  rw [Nat.mod_eq_of_lt (by omega)]

/-! ## What `main` guarantees -/

/-- **`read_blocks` and `verify_image` index in bounds.** On every range string `read_blocks`
reads the count and then, two at a time, only fields that exist; on every care map
`verify_image` reads only line pairs that exist. -/
theorem readBlocks_verifyImage_in_bounds :
    (∀ (props : Props) (io : Io) (trace : List IoOp) (blkDevicePrefix rangeStr : List Char),
      ∃ r, readBlocks props io trace blkDevicePrefix rangeStr = .ok r) ∧
    (∀ (props : Props) (io : Io) (careMap : CareMap), ∃ r, verifyImage props io careMap = .ok r) :=
  ⟨readBlocks_ok, verifyImage_ok⟩

/-- **`verify_image` accepts exactly the well-formed care maps.** When the care map opens and
every open, seek and read succeeds, `verify_image` returns whether the care map is well formed;
on a care map that is not, `main` never marks the slot, and returns `-1` whenever it runs the
verification. -/
theorem verifyImage_accepts_wellFormed (props : Props) (text : List Char) :
    (∃ t, verifyImage props allOk (.contents text) = .ok (decide (WellFormedCareMap text), t)) ∧
    (¬ WellFormedCareMap text → ∀ (boot : BootControl) (out : VerifierOutcome),
      main boot props allOk (.contents text) = .ok out →
        out.marked = false ∧
        (boot.available = true → boot.isSlotMarkedSuccessful boot.currentSlot = .false →
          propertyGet props "ro.boot.veritymode".toList [] = "enforcing".toList →
          out.exitCode = -1)) := by
  obtain ⟨t, hv⟩ := verifyImage_contents_allOk props text
  refine ⟨⟨t, hv⟩, fun hw boot out h => ⟨?_, fun h1 h2 h3 => ?_⟩⟩
  · rw [decide_eq_false hw] at hv
    cases hm : out.marked
    · rfl
    · have := (main_marked h hm).2.2.2
      rw [hv] at this
      cases this
  · rw [decide_eq_false hw] at hv
    have e1 : ¬ (("enforcing".toList.length : Nat) : Int) = -1 := by decide
    have e2 : equalsIgnoreCase "enforcing".toList "eio".toList = false := by decide
    simp only [main, h1, h2, h3, hv, e1, e2, Bool.not_true, Bool.false_eq_true, if_false, if_true,
      ne_eq, not_true_eq_false] at h
    cases h
    rfl

/-- At a care map listing `[0, 2 ^ 20)`, `main` marks the slot after reading no byte: the read
size wraps to `0` in 32 bits. -/
theorem main_reads_wrapped_size :
    main ⟨true, 0, fun _ => .false, true⟩
        [("ro.boot.veritymode".toList, "enforcing".toList), ("ro.boot.slot_suffix".toList, "_a".toList)]
        allOk (.contents "/dev/block/system\n2,0,1048576\n".toList) =
      .ok ⟨0, [.openDevice "/dev/block/system_a".toList, .seek "/dev/block/system_a".toList 0,
        .read "/dev/block/system_a".toList 0], true⟩ ∧
    (1048576 - 0) * blockSize = 2 ^ 32 :=
  ⟨rfl, rfl⟩

/-- **What `main` has read when it marks the slot.** The boot control module was found, the slot
had not booted successfully and dm-verity is enforcing; and either the care map is missing and
nothing was read, or it is well formed and `main` opened each of its devices and, for each range
`[a, b)` in order, seeked to block `a` and read `(b - a) * 4096` bytes computed in 32 bits, every
call succeeding. -/
theorem main_marked_reads {boot : BootControl} {props : Props} {io : Io} {careMap : CareMap}
    {out : VerifierOutcome} (h : main boot props io careMap = .ok out) (hm : out.marked = true) :
    boot.available = true ∧ boot.isSlotMarkedSuccessful boot.currentSlot = .false ∧
      propertyGet props "ro.boot.veritymode".toList [] = "enforcing".toList ∧
      (careMap = .missing ∧ out.trace = [] ∨
        ∃ text ranges, careMap = .contents text ∧ careMapRanges text = some ranges ∧
          allAnswered io [] (scanOps props readSize ranges) ∧
          out.trace = scanOps props readSize ranges) := by
  obtain ⟨h1, h2, h3, hv⟩ := main_marked h hm
  exact ⟨h1, h2, h3, (verifyImage_eq_true_iff props io careMap out.trace).mp hv⟩

/-- A slot not yet marked, dm-verity enforcing and a care map of eight blocks on the system
partition: `main` opens the device, seeks to block 0, reads 32768 bytes and marks the slot. -/
theorem main_systemEightBlocks :
    main ⟨true, 0, fun _ => .false, true⟩ [("ro.boot.veritymode".toList, "enforcing".toList)]
        allOk (.contents "/dev/block/system\n2,0,8".toList) =
      .ok ⟨0, [.openDevice "/dev/block/system".toList, .seek "/dev/block/system".toList 0,
        .read "/dev/block/system".toList 32768], true⟩ := rfl

theorem ranges_of_systemEightBlocks {text : List Char}
    {ranges : List (List Char × List (Nat × Nat))}
    (hc : CareMap.contents "/dev/block/system\n2,0,8".toList = .contents text)
    (hr : careMapRanges text = some ranges) :
    ranges = [("/dev/block/system".toList, [(0, 8)])] := by
  cases hc
  exact (Option.some.inj hr).symm.trans (Option.some.inj (by decide))

/-- The run of `main_systemEightBlocks` follows the plan of its care map. -/
theorem main_marked_reads_system :
    ∃ out, main ⟨true, 0, fun _ => .false, true⟩ [("ro.boot.veritymode".toList, "enforcing".toList)]
        allOk (.contents "/dev/block/system\n2,0,8".toList) = .ok out ∧ out.marked = true ∧
      out.trace = [.openDevice "/dev/block/system".toList, .seek "/dev/block/system".toList 0,
        .read "/dev/block/system".toList 32768] ∧
      out.trace = scanOps [("ro.boot.veritymode".toList, "enforcing".toList)] readSize
        [("/dev/block/system".toList, [(0, 8)])] := by
  refine ⟨_, main_systemEightBlocks, rfl, rfl, ?_⟩
  obtain ⟨-, -, -, hc | ⟨text, ranges, hc, hr, -, ht⟩⟩ :=
    main_marked_reads main_systemEightBlocks rfl
  · cases hc.1
  · rw [ht, ranges_of_systemEightBlocks hc hr]

/-- **On ranges narrower than `2 ^ 20` blocks, `main` reads every listed byte before it marks the
slot**: either the care map is missing, or for each range `[a, b)` in order it seeked to block `a`
and read exactly `(b - a) * 4096` bytes, every call succeeding. -/
theorem main_marked_reads_exact {boot : BootControl} {props : Props} {io : Io}
    {careMap : CareMap} {out : VerifierOutcome} (h : main boot props io careMap = .ok out)
    (hm : out.marked = true)
    (hnarrow : ∀ text, careMap = .contents text → ∀ ranges, careMapRanges text = some ranges →
      ∀ r ∈ ranges, ∀ p ∈ r.2, p.2 - p.1 < 2 ^ 20) :
    careMap = .missing ∧ out.trace = [] ∨
      ∃ text ranges, careMap = .contents text ∧ careMapRanges text = some ranges ∧
        allAnswered io [] (scanOps props (fun a b => (b - a) * blockSize) ranges) ∧
        out.trace = scanOps props (fun a b => (b - a) * blockSize) ranges := by
  obtain ⟨-, -, -, hv⟩ := main_marked h hm
  rcases (verifyImage_eq_true_iff props io careMap out.trace).mp hv with hmiss | ⟨text, ranges, hc, hr, ha, ht⟩
  · exact .inl hmiss
  · rw [scanOps_readSize_of_narrow props (hnarrow text hc ranges hr)] at ha ht
    exact .inr ⟨text, ranges, hc, hr, ha, ht⟩

/-- The same run with sizes computed without the 32-bit wrap: the range of eight blocks is narrower
than `2 ^ 20` blocks, and the trace reads exactly its `8 * 4096` bytes. -/
theorem main_marked_reads_exact_system :
    ∃ out, main ⟨true, 0, fun _ => .false, true⟩ [("ro.boot.veritymode".toList, "enforcing".toList)]
        allOk (.contents "/dev/block/system\n2,0,8".toList) = .ok out ∧ out.marked = true ∧
      (∀ text, CareMap.contents "/dev/block/system\n2,0,8".toList = .contents text →
        ∀ ranges, careMapRanges text = some ranges → ∀ r ∈ ranges, ∀ p ∈ r.2,
          p.2 - p.1 < 2 ^ 20) ∧
      out.trace = scanOps [("ro.boot.veritymode".toList, "enforcing".toList)]
        (fun a b => (b - a) * blockSize) [("/dev/block/system".toList, [(0, 8)])] := by
  have hnarrow : ∀ text, CareMap.contents "/dev/block/system\n2,0,8".toList = .contents text →
      ∀ ranges, careMapRanges text = some ranges → ∀ r ∈ ranges, ∀ p ∈ r.2,
        p.2 - p.1 < 2 ^ 20 := by
    intro text hc ranges hr
    rw [ranges_of_systemEightBlocks hc hr]
    decide
  refine ⟨_, main_systemEightBlocks, rfl, hnarrow, ?_⟩
  obtain hc | ⟨text, ranges, hc, hr, -, ht⟩ :=
    main_marked_reads_exact main_systemEightBlocks rfl hnarrow
  · cases hc.1
  · rw [ht, ranges_of_systemEightBlocks hc hr]

/-- **The exit code of `update_verifier`.** `main` always returns, with `0` or `-1`. It returns `0`
exactly when the boot control is found and either the current slot is not reported `FALSE` (so
`TRUE` and `INVALID` alike) or `markBootSuccessful` was called and succeeded. It touches a block
device only when the slot is reported `FALSE` and dm-verity is enforcing, so never in EIO mode. -/
theorem main_exitCode (boot : BootControl) (props : Props) (io : Io) (careMap : CareMap) :
    ∃ out, main boot props io careMap = .ok out ∧ (out.exitCode = 0 ∨ out.exitCode = -1) ∧
      (out.exitCode = 0 ↔ boot.available ∧
        (boot.isSlotMarkedSuccessful boot.currentSlot ≠ .false ∨ out.marked ∧ boot.markOk)) ∧
      (out.trace ≠ [] → boot.available ∧ boot.isSlotMarkedSuccessful boot.currentSlot = .false ∧
        propertyGet props "ro.boot.veritymode".toList [] = "enforcing".toList) := by
  obtain ⟨out, h, ⟨h1, h2, h3, -, he⟩ | ⟨hn, ht, hm, he⟩⟩ := main_cases boot props io careMap
  · refine ⟨out, h, ?_, ?_, fun _ => ⟨h1, h2, h3⟩⟩ <;> rw [he] <;> split_ifs <;> simp_all
  · refine ⟨out, h, ?_, ?_, fun hne => absurd ht hne⟩ <;> rw [he] <;> split_ifs <;> simp_all

/-- **`update_verifier` scans the care map's plan and stops at the first failure.** On a
well-formed care map, whenever `main` runs the verification (the boot control is found, the slot
is reported `FALSE` and dm-verity is enforcing), the calls it makes and whether it marks the slot
are what `runOps` gives on the care map's plan: the open of each device and the seek and the read
of each range, in order, up to the first call that fails, the slot marked exactly when none
does. -/
theorem main_scans_plan {boot : BootControl} {props : Props} {io : Io} {text : List Char}
    {ranges : List (List Char × List (Nat × Nat))} {out : VerifierOutcome}
    (hr : careMapRanges text = some ranges) (h : main boot props io (.contents text) = .ok out)
    (hrun : boot.available = true ∧ boot.isSlotMarkedSuccessful boot.currentSlot = .false ∧
      propertyGet props "ro.boot.veritymode".toList [] = "enforcing".toList) :
    (out.marked, out.trace) = runOps io [] (scanOps props readSize ranges) := by
  obtain ⟨o, ho, ⟨-, -, -, hv, -⟩ | ⟨hn, -⟩⟩ := main_cases boot props io (.contents text)
  · obtain rfl := Except.ok.inj (h.symm.trans ho)
    obtain ⟨ops, ok, hv', hp⟩ := verifyImage_eq_runOps props io (.contents text)
    obtain ⟨rfl, rfl⟩ := hp text ranges rfl hr
    rw [hv', Bool.and_true] at hv
    exact (Except.ok.inj hv).symm
  · exact absurd hrun hn

theorem main_scans_plan_failedRead :
    careMapRanges "/dev/block/system\n4,0,8,16,24".toList =
        some [("/dev/block/system".toList, [(0, 8), (16, 24)])] ∧
      main ⟨true, 0, fun _ => .false, true⟩ [("ro.boot.veritymode".toList, "enforcing".toList)]
          (fun t => t ≠ [.openDevice "/dev/block/system".toList, .seek "/dev/block/system".toList 0,
            .read "/dev/block/system".toList 32768])
          (.contents "/dev/block/system\n4,0,8,16,24".toList) =
        .ok ⟨-1, [.openDevice "/dev/block/system".toList, .seek "/dev/block/system".toList 0,
          .read "/dev/block/system".toList 32768], false⟩ ∧
      (false, [.openDevice "/dev/block/system".toList, .seek "/dev/block/system".toList 0,
          .read "/dev/block/system".toList 32768]) =
        runOps (fun t => t ≠ [.openDevice "/dev/block/system".toList,
            .seek "/dev/block/system".toList 0, .read "/dev/block/system".toList 32768]) []
          (scanOps [("ro.boot.veritymode".toList, "enforcing".toList)] readSize
            [("/dev/block/system".toList, [(0, 8), (16, 24)])]) :=
  have hr : careMapRanges "/dev/block/system\n4,0,8,16,24".toList =
      some [("/dev/block/system".toList, [(0, 8), (16, 24)])] := by decide
  ⟨hr, rfl, @main_scans_plan ⟨true, 0, fun _ => .false, true⟩
    [("ro.boot.veritymode".toList, "enforcing".toList)]
    (fun t => t ≠ [.openDevice "/dev/block/system".toList, .seek "/dev/block/system".toList 0,
      .read "/dev/block/system".toList 32768])
    "/dev/block/system\n4,0,8,16,24".toList [("/dev/block/system".toList, [(0, 8), (16, 24)])]
    ⟨-1, [.openDevice "/dev/block/system".toList, .seek "/dev/block/system".toList 0,
      .read "/dev/block/system".toList 32768], false⟩ hr rfl ⟨rfl, rfl, rfl⟩⟩

/-- **`update_verifier` never calls on after a failure.** Whatever the care map and whatever the
system answers, every call `main` makes on the block devices but the last succeeded. -/
theorem main_stops_at_failure (boot : BootControl) (props : Props) (io : Io) (careMap : CareMap) :
    ∃ out, main boot props io careMap = .ok out ∧ allAnswered io [] out.trace.dropLast := by
  obtain ⟨out, h, ⟨-, -, -, hv, -⟩ | ⟨-, ht, -⟩⟩ := main_cases boot props io careMap
  · refine ⟨out, h, ?_⟩
    obtain ⟨ops, ok, hv', -⟩ := verifyImage_eq_runOps props io careMap
    obtain ⟨done, -, -, hdone, hdrop, -⟩ := runOps_spec io [] ops
    rw [hv'] at hv
    have ht : out.trace = (runOps io [] ops).2 := (congrArg Prod.snd (Except.ok.inj hv)).symm
    rw [ht, hdone, List.nil_append]
    exact hdrop
  · exact ⟨out, h, by rw [ht]; rfl⟩

/-- **When `update_verifier` marks the slot.** For every boot control, care map and system,
`main` calls `markBootSuccessful` exactly when the boot control is found, the slot is reported
`FALSE`, dm-verity is enforcing, and either the care map is missing or it is well formed and every
open, seek and read of what it lists succeeds. -/
theorem main_marks_iff (boot : BootControl) (props : Props) (io : Io) (careMap : CareMap) :
    ∃ out, main boot props io careMap = .ok out ∧
      (out.marked = true ↔
        boot.available = true ∧ boot.isSlotMarkedSuccessful boot.currentSlot = .false ∧
          propertyGet props "ro.boot.veritymode".toList [] = "enforcing".toList ∧
          (careMap = .missing ∨ ∃ text ranges, careMap = .contents text ∧
            careMapRanges text = some ranges ∧ allAnswered io [] (scanOps props readSize ranges))) := by
  obtain ⟨out, h, ⟨h1, h2, h3, hv, -⟩ | ⟨hn, -, hm, -⟩⟩ := main_cases boot props io careMap
  · refine ⟨out, h, ⟨fun hm => ⟨h1, h2, h3, ?_⟩, fun ⟨_, _, _, hc⟩ => ?_⟩⟩
    · rcases (verifyImage_eq_true_iff props io careMap out.trace).mp (hm ▸ hv) with
        ⟨hc, -⟩ | ⟨text, ranges, hc, hr, ha, -⟩
      exacts [.inl hc, .inr ⟨text, ranges, hc, hr, ha⟩]
    · obtain ⟨t, hv'⟩ : ∃ t, verifyImage props io careMap = .ok (true, t) := by
        rcases hc with hc | ⟨text, ranges, hc, hr, ha⟩
        · exact ⟨[], (verifyImage_eq_true_iff props io careMap []).mpr (.inl ⟨hc, rfl⟩)⟩
        · exact ⟨_, (verifyImage_eq_true_iff props io careMap _).mpr
            (.inr ⟨text, ranges, hc, hr, ha, rfl⟩)⟩
      exact congrArg Prod.fst (Except.ok.inj (hv.symm.trans hv'))
  · exact ⟨out, h, iff_of_false (by simp [hm]) fun ⟨h1, h2, h3, _⟩ => hn ⟨h1, h2, h3⟩⟩

end OtaRecovery
