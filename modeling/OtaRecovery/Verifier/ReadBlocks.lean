import OtaRecovery.Base.Properties

/-!
# Reading the blocks of a range string

`update_verifier` reads every block the care map lists, so that dm-verity sees them before the
slot is marked as booted. `read_blocks` opens a block device and reads the ranges of one range
string: `"4,64536,65343,74149,74150"` is two ranges, `[64536, 65343)` and `[74149, 74150)`.

* The system is an oracle, `Io`: whether each `open`, `lseek64` or `ReadFully` succeeds, given
  the calls made before it. A run returns the calls it made, in order.
* `readRanges` is the loop of `read_blocks` over the pairs, indexing the vector of fields as the
  code does; an index past the end is a `VerifierFault`.
* `runOps` is what the scan is for: make the calls of a plan in order and stop at the first
  that fails (`runOps_spec`).
* `rangePairs` is the grammar of a range string, stated on its own: the count, then the pairs.
  `readRanges_eq_scanPairs` reads the indexed loop over the list of fields, and
  `readBlocks_eq_true_iff` says that `read_blocks` returns `true` exactly on a well-formed string
  whose open, seeks and reads all succeed.
* `readBlocks_eq_runOps`: on any string and any system, `read_blocks` runs a plan with `runOps`,
  and on a well-formed string that plan is the open and the seek and the read of each range.
-/

namespace OtaRecovery

/-- `BLOCKSIZE`. -/
def blockSize : Nat := 4096

/-- A call `update_verifier` makes on the system. -/
inductive IoOp
  /-- `open(path, O_RDONLY)` on a block device. -/
  | openDevice (path : List Char)
  /-- `lseek64(fd, offset, SEEK_SET)` on the device `path`. -/
  | seek (path : List Char) (offset : Nat)
  /-- `ReadFully(fd, buf, size)` on the device `path`. -/
  | read (path : List Char) (size : Nat)
  deriving DecidableEq, Repr

/-- The system: whether the call at the end of a history of calls succeeds. -/
abbrev Io := List IoOp → Bool

/-- The system on which every call succeeds. -/
def allOk : Io := fun _ => true

/-- A fault of the model: an index past the end of a vector. -/
inductive VerifierFault
  | outOfRange
  deriving DecidableEq, Repr

/-- Make the call `op` after the calls `trace`: whether it succeeds, and the calls made. -/
def call (io : Io) (trace : List IoOp) (op : IoOp) : Bool × List IoOp :=
  (io (trace ++ [op]), trace ++ [op])

/-- Every call of `ops`, made after `trace`, succeeds. -/
def allAnswered (io : Io) : List IoOp → List IoOp → Bool
  | _, [] => true
  | trace, op :: ops => io (trace ++ [op]) && allAnswered io (trace ++ [op]) ops

/-- The calls `read_blocks` makes for the range `[rangeStart, rangeEnd)` of `device`, with the
number of bytes to read given by `size`. -/
def pairOps (device : List Char) (size : Nat → Nat → Nat) (pair : Nat × Nat) : List IoOp :=
  [.seek device (pair.1 * blockSize), .read device (size pair.1 pair.2)]

/-- The bytes `read_blocks` asks `ReadFully` for: `(range_end - range_start) * BLOCKSIZE`,
computed in `unsigned int`. -/
def readSize (rangeStart rangeEnd : Nat) : Nat := (rangeEnd - rangeStart) * blockSize % 2 ^ 32

@[simp] theorem allAnswered_nil (io : Io) (trace : List IoOp) : allAnswered io trace [] = true :=
  rfl

@[simp] theorem allAnswered_cons (io : Io) (trace : List IoOp) (op : IoOp) (ops : List IoOp) :
    allAnswered io trace (op :: ops) = (io (trace ++ [op]) && allAnswered io (trace ++ [op]) ops) :=
  rfl

theorem allAnswered_append (io : Io) (trace ops ops' : List IoOp) :
    allAnswered io trace (ops ++ ops') = (allAnswered io trace ops && allAnswered io (trace ++ ops) ops') := by
  induction ops generalizing trace with
  | nil => simp
  | cons op ops ih => simp [ih, Bool.and_assoc]

/-! ## Running a plan of calls -/

/-- Make the calls of a plan in order after `trace`, stopping at the first that fails: whether
every call succeeded, and the calls made. This is what the scan of `update_verifier` does with
the blocks a well-formed care map lists. -/
def runOps (io : Io) : List IoOp → List IoOp → Bool × List IoOp
  | trace, [] => (true, trace)
  | trace, op :: ops =>
    let r := call io trace op
    if !r.1 then (false, r.2) else runOps io r.2 ops

@[simp] theorem runOps_nil (io : Io) (trace : List IoOp) : runOps io trace [] = (true, trace) :=
  rfl

theorem runOps_cons (io : Io) (trace : List IoOp) (op : IoOp) (ops : List IoOp) :
    runOps io trace (op :: ops) =
      if io (trace ++ [op]) then runOps io (trace ++ [op]) ops else (false, trace ++ [op]) := by
  cases h : io (trace ++ [op]) <;> simp [runOps, call, h]

theorem runOps_cons_of_true {io : Io} {trace : List IoOp} {op : IoOp}
    (h : io (trace ++ [op]) = true) (ops : List IoOp) :
    runOps io trace (op :: ops) = runOps io (trace ++ [op]) ops := by
  simp [runOps, call, h]

theorem runOps_cons_of_false {io : Io} {trace : List IoOp} {op : IoOp}
    (h : io (trace ++ [op]) = false) (ops : List IoOp) :
    runOps io trace (op :: ops) = (false, trace ++ [op]) := by
  simp [runOps, call, h]

/-- A plan run in two parts: the second part runs only when the first succeeded. -/
theorem runOps_append (io : Io) (trace ops ops' : List IoOp) :
    runOps io trace (ops ++ ops') =
      if (runOps io trace ops).1 then runOps io (runOps io trace ops).2 ops'
      else runOps io trace ops := by
  induction ops generalizing trace with
  | nil => rfl
  | cons op ops ih =>
    cases h : io (trace ++ [op])
    · simp only [List.cons_append, runOps_cons_of_false h, Bool.false_eq_true, if_false]
    · simp only [List.cons_append, runOps_cons_of_true h, ih]

/-- **The run stops at the first failing call.** It makes the calls of a prefix `done` of the
plan, every one succeeding but perhaps the last. It answers `true` when it made them all and each
succeeded, and `false` when the last call it made failed. -/
theorem runOps_spec (io : Io) (trace ops : List IoOp) :
    ∃ done rest, ops = done ++ rest ∧ (runOps io trace ops).2 = trace ++ done ∧
      allAnswered io trace done.dropLast ∧
      ((runOps io trace ops).1 = true ∧ rest = [] ∧ allAnswered io trace done ∨
        (runOps io trace ops).1 = false ∧ done ≠ [] ∧ io (trace ++ done) = false) := by
  induction ops generalizing trace with
  | nil => exact ⟨[], [], rfl, (List.append_nil _).symm, rfl, .inl ⟨rfl, rfl, rfl⟩⟩
  | cons op ops ih =>
    cases hop : io (trace ++ [op])
    · rw [runOps_cons_of_false hop]
      exact ⟨[op], ops, rfl, rfl, rfl, .inr ⟨rfl, List.cons_ne_nil _ _, hop⟩⟩
    · rw [runOps_cons_of_true hop]
      obtain ⟨done, rest, rfl, ht, ha, hr⟩ := ih (trace ++ [op])
      have hdrop : allAnswered io trace (op :: done).dropLast = true := by
        cases done with
        | nil => rfl
        | cons d ds => simpa [hop] using ha
      refine ⟨op :: done, rest, rfl, by simp [ht], hdrop, ?_⟩
      rcases hr with ⟨h1, rfl, ha'⟩ | ⟨h1, -, hio⟩
      · exact .inl ⟨h1, rfl, by simp [hop, ha']⟩
      · exact .inr ⟨h1, List.cons_ne_nil _ _, by simpa using hio⟩

/-! ## The loop over the pairs -/

/-- The loop `for (size_t i = 1; i < ranges.size(); i += 2)` of `read_blocks`, from index `i`,
for at most `fuel` turns. Every turn reads `ranges[i + 1]`: the `&&` of the code parses it only
when `ranges[i]` parses, and otherwise the `LOG(ERROR)` line of the failed pair prints it. -/
def readRanges (io : Io) (device : List Char) (ranges : List (List Char)) :
    Nat → Nat → List IoOp → Except VerifierFault (Bool × List IoOp)
  | 0, _, trace => .ok (true, trace)
  | fuel + 1, i, trace =>
    if i < ranges.length then
      match ranges[i]? with
      | none => .error .outOfRange
      | some startS =>
        match parseUint (cStr startS) uintMax with
        | none =>
          match ranges[i + 1]? with
          | none => .error .outOfRange
          | some _ => .ok (false, trace)
        | some rangeStart =>
          match ranges[i + 1]? with
          | none => .error .outOfRange
          | some endS =>
            match parseUint (cStr endS) uintMax with
            | none => .ok (false, trace)
            | some rangeEnd =>
              if rangeStart ≥ rangeEnd then .ok (false, trace)
              else
                let seek := call io trace (.seek device (rangeStart * blockSize))
                if !seek.1 then .ok (false, seek.2)
                else
                  let read := call io seek.2 (.read device (readSize rangeStart rangeEnd))
                  if !read.1 then .ok (false, read.2)
                  else readRanges io device ranges fuel (i + 2) read.2
    else .ok (true, trace)

/-- On a vector that ends at a field that does not parse, the `LOG(ERROR)` line reads past the
end. -/
example : readRanges allOk [] ["2".toList, "x".toList] 1 1 [] = .error .outOfRange := rfl

/-- `blk_device`: the prefix and the slot suffix, as `open` reads it. -/
def blkDevice (props : Props) (blkDevicePrefix : List Char) : List Char :=
  cStr (blkDevicePrefix ++ propertyGet props "ro.boot.slot_suffix".toList [])

/-- `read_blocks(blk_device_prefix, range_str)`: whether it returns `true`, and the calls made. -/
def readBlocks (props : Props) (io : Io) (trace : List IoOp) (blkDevicePrefix rangeStr : List Char) :
    Except VerifierFault (Bool × List IoOp) :=
  let device := blkDevice props blkDevicePrefix
  let opened := call io trace (.openDevice device)
  if !opened.1 then .ok (false, opened.2)
  else
    let ranges := split rangeStr [',']
    match ranges[0]? with
    | none => .error .outOfRange
    | some countS =>
      match parseUint (cStr countS) sizeMax with
      | none => .ok (false, opened.2)
      | some rangeCount =>
        if rangeCount = 0 ∨ rangeCount % 2 ≠ 0 ∨ rangeCount ≠ ranges.length - 1 then
          .ok (false, opened.2)
        else readRanges io device ranges ranges.length 1 opened.2

/-! ## The grammar of a range string -/

/-- The pairs of a list of fields `a₁, b₁, …, a_k, b_k`: each field read by `ParseUint` as a
32-bit unsigned integer, with `aᵢ < bᵢ`. -/
def parsePairs : List (List Char) → Option (List (Nat × Nat))
  | [] => some []
  | [_] => none
  | a :: b :: rest =>
    match parseUint (cStr a) uintMax, parseUint (cStr b) uintMax with
    | some x, some y => if x < y then (parsePairs rest).map ((x, y) :: ·) else none
    | _, _ => none

/-- The ranges of a well-formed range string: `Split(spec, ",")` is `[n, a₁, b₁, …, a_k, b_k]`
with `k ≥ 1`, `n` read by `ParseUint` as `2k`, and the pairs well formed. -/
def rangePairs (spec : List Char) : Option (List (Nat × Nat)) :=
  match split spec [','] with
  | [] => none
  | n :: rest =>
    match parsePairs rest with
    | some pairs =>
      if pairs ≠ [] ∧ parseUint (cStr n) sizeMax = some (2 * pairs.length) then some pairs
      else none
    | none => none

/-! ## The loop, over the list of fields -/

/-- The loop of `read_blocks` read over the fields after the count, two at a time. -/
def scanPairs (io : Io) (device : List Char) : List (List Char) → List IoOp → Bool × List IoOp
  | a :: b :: rest, trace =>
    match parseUint (cStr a) uintMax, parseUint (cStr b) uintMax with
    | some x, some y =>
      if x ≥ y then (false, trace)
      else
        let seek := call io trace (.seek device (x * blockSize))
        if !seek.1 then (false, seek.2)
        else
          let read := call io seek.2 (.read device (readSize x y))
          if !read.1 then (false, read.2) else scanPairs io device rest read.2
    | _, _ => (false, trace)
  | _, trace => (true, trace)

/-- **The indexed loop is the loop over the fields.** From an odd index of a vector of odd
length, with enough turns, `readRanges` never indexes past the end and computes `scanPairs` over
the fields from that index. -/
theorem readRanges_eq_scanPairs (io : Io) (device : List Char) {ranges : List (List Char)}
    (hodd : ranges.length % 2 = 1) :
    ∀ (fuel i : Nat) (trace : List IoOp), i % 2 = 1 → ranges.length ≤ i + 2 * fuel →
      readRanges io device ranges fuel i trace = .ok (scanPairs io device (ranges.drop i) trace) := by
  intro fuel
  induction fuel with
  | zero =>
    intro i trace _ hlen
    rw [List.drop_eq_nil_of_le (by omega)]
    rfl
  | succ fuel ih =>
    intro i trace hi hlen
    by_cases hlt : i < ranges.length
    · have hlt' : i + 1 < ranges.length := by omega
      have ih' : ∀ t, readRanges io device ranges fuel (i + 2) t =
          .ok (scanPairs io device (ranges.drop (i + 2)) t) := fun t => ih (i + 2) t (by omega) (by omega)
      rw [List.drop_eq_getElem_cons hlt, List.drop_eq_getElem_cons hlt']
      simp only [readRanges, hlt, if_true, List.getElem?_eq_getElem hlt,
        List.getElem?_eq_getElem hlt', scanPairs, ih']
      cases parseUint (cStr ranges[i]) uintMax <;> cases parseUint (cStr ranges[i + 1]) uintMax <;>
        simp only
      split_ifs <;> rfl
    · rw [List.drop_eq_nil_of_le (by omega), readRanges, if_neg hlt]
      rfl

/-- **What a run of the loop reads.** Over an even number of fields, the loop returns `true`
exactly when the fields are well-formed pairs and the seek and the read of every pair succeed;
the calls it makes are then the seek and the read of each pair, in order. -/
theorem scanPairs_eq_true_iff (io : Io) (device : List Char) :
    ∀ (fields : List (List Char)), fields.length % 2 = 0 → ∀ (trace t : List IoOp),
      scanPairs io device fields trace = (true, t) ↔
        ∃ pairs, parsePairs fields = some pairs ∧
          allAnswered io trace (pairs.flatMap (pairOps device readSize)) ∧
          t = trace ++ pairs.flatMap (pairOps device readSize)
  | [], _, trace, t => by
    simp only [scanPairs, parsePairs, Option.some.injEq, Prod.mk.injEq, true_and, exists_eq_left',
      List.flatMap_nil, List.append_nil, allAnswered_nil]
    exact eq_comm
  | [_], h, _, _ => by simp at h
  | a :: b :: rest, h, trace, t => by
    have ih := scanPairs_eq_true_iff io device rest (by simp only [List.length_cons] at h; omega)
    simp only [scanPairs, parsePairs]
    cases parseUint (cStr a) uintMax with
    | none => simp
    | some x =>
      cases parseUint (cStr b) uintMax with
      | none => simp
      | some y =>
        by_cases hxy : x < y
        · simp only [ge_iff_le, not_le.mpr hxy, if_false, if_pos hxy, call, Option.map_eq_some',
            exists_exists_and_eq_and, List.flatMap_cons, pairOps, List.cons_append, List.nil_append,
            allAnswered_cons, List.append_assoc, List.singleton_append]
          cases io (trace ++ [.seek device (x * blockSize)]) <;>
            cases io (trace ++ [.seek device (x * blockSize), .read device (readSize x y)]) <;>
            simp [ih]
        · simp [hxy, not_lt.mp hxy]

theorem parsePairs_length :
    ∀ {fields : List (List Char)} {pairs : List (Nat × Nat)}, parsePairs fields = some pairs →
      fields.length = 2 * pairs.length
  | [], _, h => by cases h; rfl
  | [_], _, h => by cases h
  | a :: b :: rest, pairs, h => by
    simp only [parsePairs] at h
    split at h <;> try cases h
    split_ifs at h
    obtain ⟨ps, hps, rfl⟩ := Option.map_eq_some'.mp h
    simp only [List.length_cons, parsePairs_length hps]
    omega

/-- **The loop over the pairs runs a plan.** On any fields the loop makes the calls of a plan,
stopping at the first failing call, and answers `false` as well when it meets a malformed pair;
on well-formed pairs the plan is their seeks and reads and nothing else fails. -/
theorem scanPairs_eq_runOps (io : Io) (device : List Char) :
    ∀ (fields : List (List Char)) (trace : List IoOp), ∃ ops ok,
      scanPairs io device fields trace = ((runOps io trace ops).1 && ok, (runOps io trace ops).2) ∧
      ∀ pairs, parsePairs fields = some pairs →
        ops = pairs.flatMap (pairOps device readSize) ∧ ok = true
  | a :: b :: rest, trace => by
    cases ha : parseUint (cStr a) uintMax with
    | none => exact ⟨[], false, by simp [scanPairs, ha], by simp [parsePairs, ha]⟩
    | some x =>
      cases hb : parseUint (cStr b) uintMax with
      | none => exact ⟨[], false, by simp [scanPairs, ha, hb], by simp [parsePairs, ha, hb]⟩
      | some y =>
        by_cases hxy : x < y
        · obtain ⟨ops, ok, hs, hp⟩ := scanPairs_eq_runOps io device rest
            (trace ++ [.seek device (x * blockSize), .read device (readSize x y)])
          refine ⟨pairOps device readSize (x, y) ++ ops, ok, ?_, fun pairs hpp => ?_⟩
          · simp only [scanPairs, ha, hb, ge_iff_le, not_le.mpr hxy, if_false, pairOps,
              List.cons_append, List.nil_append, runOps, call]
            cases io (trace ++ [.seek device (x * blockSize)]) <;>
              cases io (trace ++ [.seek device (x * blockSize)] ++
                [.read device (readSize x y)]) <;>
              simp [hs]
          · simp only [parsePairs, ha, hb, if_pos hxy, Option.map_eq_some'] at hpp
            obtain ⟨ps, hps, rfl⟩ := hpp
            obtain ⟨rfl, rfl⟩ := hp ps hps
            exact ⟨rfl, rfl⟩
        · exact ⟨[], false, by simp [scanPairs, ha, hb, not_lt.mp hxy],
            by simp [parsePairs, ha, hb, hxy]⟩
  | [], trace | [_], trace => ⟨[], true, rfl, by simp [parsePairs]⟩

theorem rangePairs_eq_some_iff {spec n : List Char} {rest : List (List Char)}
    (h : split spec [','] = n :: rest) (pairs : List (Nat × Nat)) :
    rangePairs spec = some pairs ↔
      parsePairs rest = some pairs ∧ pairs ≠ [] ∧ parseUint (cStr n) sizeMax = some (2 * pairs.length) := by
  rw [rangePairs, h]
  cases hp : parsePairs rest with
  | none => simp [hp]
  | some ps =>
    simp only [hp, Option.some.injEq]
    constructor
    · intro e
      split_ifs at e with hc
      cases e
      exact ⟨rfl, hc⟩
    · rintro ⟨rfl, hc⟩
      rw [if_pos hc]

@[simp] theorem allAnswered_allOk (trace ops : List IoOp) : allAnswered allOk trace ops = true := by
  induction ops generalizing trace with
  | nil => rfl
  | cons op ops ih => simp [allOk, ih]

/-- **`read_blocks` never indexes past the end** of its vector of fields. -/
theorem readBlocks_ok (props : Props) (io : Io) (trace : List IoOp) (blkDevicePrefix rangeStr : List Char) :
    ∃ r, readBlocks props io trace blkDevicePrefix rangeStr = .ok r := by
  obtain ⟨n, rest, hsplit⟩ := List.exists_cons_of_ne_nil (split_ne_nil rangeStr [','])
  simp only [readBlocks, hsplit, List.getElem?_cons_zero]
  split_ifs
  · exact ⟨_, rfl⟩
  cases parseUint (cStr n) sizeMax with
  | none => exact ⟨_, rfl⟩
  | some count =>
    simp only
    split_ifs with hc
    · exact ⟨_, rfl⟩
    · simp only [not_or, not_not, List.length_cons] at hc
      rw [readRanges_eq_scanPairs io _ (by simp; omega) _ 1 _ (by rfl) (by simp; omega)]
      exact ⟨_, rfl⟩

/-- **What `read_blocks` reads.** It returns `true` exactly when its range string is well formed
and the open of the device and the seek and the read of every range succeed; the calls it makes
are then the open and, for each range in order, the seek to its first block and the read of its
bytes. -/
theorem readBlocks_eq_true_iff (props : Props) (io : Io) (trace : List IoOp)
    (blkDevicePrefix rangeStr : List Char) (t : List IoOp) :
    readBlocks props io trace blkDevicePrefix rangeStr = .ok (true, t) ↔
      ∃ pairs, rangePairs rangeStr = some pairs ∧
        allAnswered io trace (.openDevice (blkDevice props blkDevicePrefix) ::
          pairs.flatMap (pairOps (blkDevice props blkDevicePrefix) readSize)) ∧
        t = trace ++ .openDevice (blkDevice props blkDevicePrefix) ::
          pairs.flatMap (pairOps (blkDevice props blkDevicePrefix) readSize) := by
  obtain ⟨n, rest, hsplit⟩ := List.exists_cons_of_ne_nil (split_ne_nil rangeStr [','])
  simp only [rangePairs_eq_some_iff hsplit, readBlocks, hsplit, List.getElem?_cons_zero, call,
    allAnswered_cons]
  cases ho : io (trace ++ [.openDevice (blkDevice props blkDevicePrefix)])
  · simp
  cases hn : parseUint (cStr n) sizeMax with
  | none => simp
  | some count =>
    simp only [Bool.not_true, Bool.false_eq_true, if_false, Option.some.injEq, Bool.true_and]
    split_ifs with hc
    · simp only [Except.ok.injEq, Prod.mk.injEq, Bool.false_eq_true, false_and, false_iff]
      rintro ⟨pairs, ⟨hp, hne, rfl⟩, -⟩
      have := parsePairs_length hp
      have := List.length_pos.mpr hne
      simp only [List.length_cons] at hc
      omega
    · simp only [not_or, not_not, List.length_cons] at hc
      rw [readRanges_eq_scanPairs io _ (by simp; omega) _ 1 _ rfl (by simp; omega)]
      simp only [List.length_cons, List.drop_one, List.tail_cons, Except.ok.injEq,
        scanPairs_eq_true_iff io _ rest (by omega), List.append_assoc, List.singleton_append]
      constructor
      · rintro ⟨pairs, hp, ha, rfl⟩
        have := parsePairs_length hp
        refine ⟨pairs, ⟨hp, fun e => ?_, by omega⟩, ha, rfl⟩
        rw [e, List.length_nil] at this
        omega
      · rintro ⟨pairs, ⟨hp, -, -⟩, ha, rfl⟩
        exact ⟨pairs, hp, ha, rfl⟩

/-- **`read_blocks` runs a plan.** On any range string it makes the calls of a plan, the open of
the device first, stopping at the first failing call, and answers `false` as well when the
string is malformed; on a well-formed string the plan is the open and the seek and the read of
each range, and nothing else fails. -/
theorem readBlocks_eq_runOps (props : Props) (io : Io) (trace : List IoOp)
    (blkDevicePrefix rangeStr : List Char) :
    ∃ ops ok, readBlocks props io trace blkDevicePrefix rangeStr =
        .ok ((runOps io trace ops).1 && ok, (runOps io trace ops).2) ∧
      ∀ pairs, rangePairs rangeStr = some pairs →
        ops = .openDevice (blkDevice props blkDevicePrefix) ::
          pairs.flatMap (pairOps (blkDevice props blkDevicePrefix) readSize) ∧ ok = true := by
  obtain ⟨n, rest, hsplit⟩ := List.exists_cons_of_ne_nil (split_ne_nil rangeStr [','])
  by_cases hc : parseUint (cStr n) sizeMax = some rest.length ∧ rest.length ≠ 0 ∧
      rest.length % 2 = 0
  · -- the count is right: after the open, the loop over the pairs
    obtain ⟨hn, hne, heven⟩ := hc
    obtain ⟨ops, ok, hs, hp⟩ := scanPairs_eq_runOps io (blkDevice props blkDevicePrefix) rest
      (trace ++ [.openDevice (blkDevice props blkDevicePrefix)])
    refine ⟨.openDevice (blkDevice props blkDevicePrefix) :: ops, ok, ?_, fun pairs hpp => ?_⟩
    · simp only [readBlocks, hsplit, List.getElem?_cons_zero, hn, call, runOps_cons,
        List.length_cons, Nat.add_sub_cancel, hne, heven, ne_eq, not_true_eq_false, or_self,
        if_false]
      rw [readRanges_eq_scanPairs io _ (by simp; omega) _ 1 _ rfl (by simp; omega)]
      cases io (trace ++ [.openDevice (blkDevice props blkDevicePrefix)]) <;> simp [hs]
    · obtain ⟨hpp, -, -⟩ := (rangePairs_eq_some_iff hsplit pairs).mp hpp
      obtain ⟨rfl, rfl⟩ := hp pairs hpp
      exact ⟨rfl, rfl⟩
  · -- a malformed count: the open, and nothing more
    refine ⟨[.openDevice (blkDevice props blkDevicePrefix)], false, ?_, fun pairs hpp => ?_⟩
    · simp only [readBlocks, hsplit, List.getElem?_cons_zero, call, runOps_cons, runOps_nil,
        Bool.and_false]
      cases io (trace ++ [.openDevice (blkDevice props blkDevicePrefix)])
      · rfl
      simp only [Bool.not_true, Bool.false_eq_true, if_false, if_true]
      cases hn : parseUint (cStr n) sizeMax with
      | none => rfl
      | some count =>
        have hcount : count = 0 ∨ count % 2 ≠ 0 ∨ count ≠ (n :: rest).length - 1 := by
          by_contra hcount
          simp only [not_or, not_not, List.length_cons, Nat.add_sub_cancel] at hcount
          exact hc ⟨hn.trans (congrArg some hcount.2.2), by omega, by omega⟩
        exact if_pos hcount
    · obtain ⟨hpp, hne, hn⟩ := (rangePairs_eq_some_iff hsplit pairs).mp hpp
      have hlen := parsePairs_length hpp
      have := List.length_pos.mpr hne
      exact absurd ⟨by rw [hn, hlen], by omega, by omega⟩ hc

end OtaRecovery
