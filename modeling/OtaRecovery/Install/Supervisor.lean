import OtaRecovery.Install.Command

/-!
# The status pipe of the update binary

The update binary reports to the installer over a pipe, one command per line: `progress`,
`set_progress`, `ui_print`, `wipe_cache`, `clear_display`, `enable_reboot`, `retry_update` and
`log`. `try_update_binary` reads the pipe with `fgets` into a buffer of 1024 bytes and cuts each
buffer into tokens with `strtok`.

* `fgets` and `strtok` are the two C functions on byte lists, and `readBuffers` is the sequence
  of buffers the `fgets` loop reads.
* `dispatch` is one turn of the command loop. When a command's argument is missing, `strtok`
  returns `NULL` and the code hands it on to `strtof`, `strtol` or the `std::string`
  constructor: `dispatch` returns that as a `Fault`.
* Read line by line, the loop is `dispatch` over the lines of the stream. `commandLoop_lines`
  shows the buffer loop is that when every line fits the buffer and no NUL is sent; in general
  (`commandLoop_pieces`) it is `dispatch` over the 1023-byte pieces of the lines. And
  `foldlM_dispatch_ok` says what a run over lines does to the retry flag, the cache flag and
  the log; `commandLoop_eq_ok` says it over any buffers.
* `tryUpdateBinary_eq_ok` lists the three ways `try_update_binary` returns; from it,
  `tryUpdateBinary_eq_success_iff` says when it succeeds and `tryUpdateBinary_logBuffer_lines`
  that every entry it logs is one line.
-/

namespace OtaRecovery

/-! ## `fgets` and `strtok` -/

/-- The bytes one `fgets` call reads when `n` bytes of the buffer are free: up to and including
the first newline, at most `n`; and the rest of the stream. -/
def fgetsLine : Nat → List Char → List Char × List Char
  | 0, s => ([], s)
  | _ + 1, [] => ([], [])
  | n + 1, c :: s =>
    if c = '\n' then ([c], s) else ((c :: (fgetsLine n s).1), (fgetsLine n s).2)

/-- `fgets(buffer, size, stream)`: `none` (`NULL`) at the end of the stream, else the bytes read
and the rest of the stream. -/
def fgets (size : Nat) (stream : List Char) : Option (List Char × List Char) :=
  if stream = [] then none else some (fgetsLine (size - 1) stream)

/-- The buffers `while (fgets(buffer, size, stream) != NULL)` reads, at most `fuel` of them. -/
def readBuffers (size : Nat) : Nat → List Char → List (List Char)
  | 0, _ => []
  | fuel + 1, stream =>
    match fgets size stream with
    | none => []
    | some (buffer, rest) => buffer :: readBuffers size fuel rest

/-- `strtok` on the C string `s` with the delimiters `delims`: the token (`none` for `NULL`) and
the text a following `strtok(NULL, ...)` resumes from. -/
def strtok (s delims : List Char) : Option (List Char) × List Char :=
  match s.dropWhile (· ∈ delims) with
  | [] => (none, [])
  | t => (some (t.takeWhile (· ∉ delims)), (t.dropWhile (· ∉ delims)).drop 1)

/-! ## The command loop -/

/-- A call the installer makes on the recovery UI, with the text it converts. -/
inductive UiCall
  /-- `SetBackground(RecoveryUI::INSTALLING_UPDATE)`. -/
  | setBackgroundInstalling
  /-- `SetBackground(RecoveryUI::NONE)`. -/
  | setBackgroundNone
  /-- `Print(text)`, on the screen and in the log. -/
  | print (text : List Char)
  /-- `PrintOnScreenOnly(text)`. -/
  | printOnScreenOnly (text : List Char)
  /-- `SetProgressType(RecoveryUI::DETERMINATE)`. -/
  | setProgressDeterminate
  /-- `ShowProgress(VERIFICATION_PROGRESS_FRACTION, VERIFICATION_PROGRESS_TIME)`. -/
  | showVerificationProgress
  /-- `ShowProgress(strtof(fraction) * (1 - VERIFICATION_PROGRESS_FRACTION), strtol(seconds))`. -/
  | showProgress (fraction seconds : List Char)
  /-- `SetProgress(strtof(fraction))`. -/
  | setProgress (fraction : List Char)
  /-- `SetEnableReboot(enabled)`. -/
  | setEnableReboot (enabled : Bool)
  deriving DecidableEq, Repr

/-- A `NULL` token handed on by the command loop, named by the callee it reaches. -/
inductive Fault
  | nullToStrtof
  | nullToStrtol
  | nullToString
  deriving DecidableEq, Repr

/-- What the command loop has gathered: the `wipe_cache` and `retry_update` flags, the log
buffer and the UI calls made. -/
structure LoopState where
  wipeCache : Bool
  retryUpdate : Bool
  logBuffer : List (List Char)
  ui : List UiCall
  deriving DecidableEq, Repr

/-- The body of the command loop once the first `strtok` has returned `command`; `rest` is the
text the later `strtok(NULL, ...)` calls resume from. -/
def runCommand (st : LoopState) (command : Option (List Char)) (rest : List Char) :
    Except Fault LoopState :=
  match command with
  | none => .ok st
  | some name =>
    if name = "progress".toList then
      let fractionS := strtok rest " \n".toList
      let secondsS := strtok fractionS.2 " \n".toList
      match fractionS.1, secondsS.1 with
      | none, _ => .error .nullToStrtof
      | some _, none => .error .nullToStrtol
      | some fraction, some seconds => .ok { st with ui := st.ui ++ [.showProgress fraction seconds] }
    else if name = "set_progress".toList then
      match (strtok rest " \n".toList).1 with
      | none => .error .nullToStrtof
      | some fraction => .ok { st with ui := st.ui ++ [.setProgress fraction] }
    else if name = "ui_print".toList then
      match (strtok rest "\n".toList).1 with
      | some str => .ok { st with ui := st.ui ++ [.printOnScreenOnly str] }
      | none => .ok { st with ui := st.ui ++ [.printOnScreenOnly "\n".toList] }
    else if name = "wipe_cache".toList then .ok { st with wipeCache := true }
    else if name = "clear_display".toList then
      .ok { st with ui := st.ui ++ [.setBackgroundNone] }
    else if name = "enable_reboot".toList then
      .ok { st with ui := st.ui ++ [.setEnableReboot true] }
    else if name = "retry_update".toList then .ok { st with retryUpdate := true }
    else if name = "log".toList then
      match (strtok rest "\n".toList).1 with
      | none => .error .nullToString
      | some text => .ok { st with logBuffer := st.logBuffer ++ [text] }
    else .ok st

/-- One turn of the command loop of `try_update_binary`, on the buffer `fgets` filled. The
tokens are fetched as the code fetches them, by successive `strtok` calls, each resuming where
the one before stopped. -/
def dispatch (st : LoopState) (buffer : List Char) : Except Fault LoopState :=
  let command := strtok (cStr buffer) " \n".toList
  runCommand st command.1 command.2

/-- The command loop over the buffers read. -/
def commandLoop (st : LoopState) (buffers : List (List Char)) : Except Fault LoopState :=
  buffers.foldlM dispatch st

/-- `WIFEXITED(status)`. -/
def wIfExited (status : Nat) : Bool := status % 128 = 0

/-- `WEXITSTATUS(status)`. -/
def wExitStatus (status : Nat) : Nat := status / 256 % 256

/-- The result `try_update_binary` computes after the child is reaped. -/
def terminalStatus (retryUpdate : Bool) (status : Nat) : InstallResult :=
  if retryUpdate then .retry
  else if !wIfExited status || wExitStatus status ≠ 0 then .error
  else .success

/-! ## Buffers and lines -/

/-- `a` is `b`, or `b` followed by a newline. -/
def NewlineTail (a b : List Char) : Prop := a = b ∨ a = b ++ ['\n']

theorem NewlineTail.refl (a : List Char) : NewlineTail a a := .inl rfl

/-- A newline at the end of the text changes neither the token `strtok` returns nor, but for
that newline, the text it leaves. -/
theorem strtok_newlineTail {ds : List Char} (hd : '\n' ∈ ds) {a b : List Char}
    (h : NewlineTail a b) :
    (strtok a ds).1 = (strtok b ds).1 ∧ NewlineTail (strtok a ds).2 (strtok b ds).2 := by
  rcases h with rfl | rfl
  · exact ⟨rfl, .refl _⟩
  have hnl : ('\n' ∈ ds) = True := eq_true hd
  unfold strtok
  rw [List.dropWhile_append]
  cases ht : b.dropWhile (· ∈ ds) with
  | nil => simpa [hnl] using NewlineTail.refl []
  | cons c t =>
    have hc : ¬ c ∈ ds := by
      have := List.head_dropWhile_not (fun x => decide (x ∈ ds)) b (by simp [ht])
      simpa [ht] using this
    simp only [List.isEmpty_cons, Bool.false_eq_true, if_false, List.cons_append]
    rw [List.takeWhile_cons_of_pos (by simpa using hc), List.takeWhile_cons_of_pos (by simpa using hc),
      List.dropWhile_cons_of_pos (by simpa using hc), List.dropWhile_cons_of_pos (by simpa using hc),
      List.takeWhile_append, List.dropWhile_append]
    have hn : List.takeWhile (fun x => decide (x ∉ ds)) ['\n'] = [] := by simp [hd]
    have hn' : List.dropWhile (fun x => decide (x ∉ ds)) ['\n'] = ['\n'] := by simp [hd]
    refine ⟨?_, ?_⟩
    · split_ifs with hl
      · rw [hn, List.append_nil, (List.takeWhile_prefix _).eq_of_length hl]
      · rfl
    · cases hr : List.dropWhile (fun x => decide (x ∉ ds)) t with
      | nil => rw [List.isEmpty_nil, if_pos rfl, hn']; exact .refl []
      | cons x xs => exact .inr (by simp)

theorem not_mem_of_newlineTail {c : Char} {a b : List Char} (h : NewlineTail a b) (hc : c ≠ '\n')
    (hb : c ∉ b) : c ∉ a := by
  rcases h with rfl | rfl
  · exact hb
  · simp_all

/-- A newline after a command's arguments does not change what the loop body does. -/
theorem runCommand_newlineTail (st : LoopState) (command : Option (List Char)) {a b : List Char}
    (h : NewlineTail a b) : runCommand st command a = runCommand st command b := by
  have hsp : '\n' ∈ " \n".toList := by decide
  obtain ⟨e1, t1⟩ := strtok_newlineTail hsp h
  have e2 := (strtok_newlineTail hsp t1).1
  have e3 := (strtok_newlineTail (by decide : '\n' ∈ "\n".toList) h).1
  simp only [runCommand, e1, e2, e3]

/-- A newline after a command line does not change what the loop does with it. -/
theorem dispatch_newlineTail (st : LoopState) {a b : List Char} (h : NewlineTail a b)
    (hb : '\x00' ∉ b) : dispatch st a = dispatch st b := by
  have ha := not_mem_of_newlineTail h (by decide) hb
  obtain ⟨e1, t1⟩ := strtok_newlineTail (by decide : '\n' ∈ " \n".toList) h
  simp only [dispatch, cStr_of_not_mem ha, cStr_of_not_mem hb, e1, runCommand_newlineTail st _ t1]

theorem fgetsLine_append_newline {l : List Char} (hl : '\n' ∉ l) :
    ∀ {n : Nat}, l.length < n → ∀ r, fgetsLine n (l ++ '\n' :: r) = (l ++ ['\n'], r) := by
  induction l with
  | nil => intro n hn r; cases n with
    | zero => cases hn
    | succ n => simp [fgetsLine]
  | cons c l ih =>
    intro n hn r
    have hc : c ≠ '\n' := fun h => hl (h ▸ List.mem_cons_self c l)
    cases n with
    | zero => cases hn
    | succ n =>
      rw [List.cons_append, fgetsLine, if_neg hc,
        ih (fun h => hl (List.mem_cons_of_mem c h)) (by simpa using hn) r]
      rfl

theorem fgetsLine_append_of_length {l : List Char} (hl : '\n' ∉ l) :
    ∀ {n : Nat}, l.length = n → ∀ r, fgetsLine n (l ++ r) = (l, r) := by
  induction l with
  | nil => intro n hn r; subst hn; rfl
  | cons c l ih =>
    intro n hn r
    have hc : c ≠ '\n' := fun h => hl (h ▸ List.mem_cons_self c l)
    subst hn
    rw [List.length_cons, List.cons_append, fgetsLine, if_neg hc,
      ih (fun h => hl (List.mem_cons_of_mem c h)) rfl r]

theorem fgetsLine_of_length_le {l : List Char} (hl : '\n' ∉ l) :
    ∀ {n : Nat}, l.length ≤ n → fgetsLine n l = (l, []) := by
  induction l with
  | nil => intro n _; cases n <;> rfl
  | cons c l ih =>
    intro n hn
    have hc : c ≠ '\n' := fun h => hl (h ▸ List.mem_cons_self c l)
    cases n with
    | zero => cases hn
    | succ n =>
      rw [fgetsLine, if_neg hc, ih (fun h => hl (List.mem_cons_of_mem c h)) (by simpa using hn)]

theorem exists_eq_append_cons_of_mem {c : Char} {s : List Char} (h : c ∈ s) :
    ∃ l r, s = l ++ c :: r ∧ c ∉ l := by
  cases hf : find c s with
  | none => exact absurd h (find_eq_none.mp hf)
  | some i => exact ⟨_, _, find_eq_some hf⟩

@[simp] theorem readBuffers_nil (size fuel : Nat) : readBuffers size fuel [] = [] := by
  cases fuel <;> rfl

theorem readBuffers_succ {size : Nat} {s : List Char} (hs : s ≠ []) (fuel : Nat) :
    readBuffers size (fuel + 1) s =
      (fgetsLine (size - 1) s).1 :: readBuffers size fuel (fgetsLine (size - 1) s).2 := by
  simp [readBuffers, fgets, hs]

@[simp] theorem dispatch_nil (st : LoopState) : dispatch st [] = pure st := rfl

@[simp] theorem dispatch_newline (st : LoopState) : dispatch st ['\n'] = pure st := rfl

/-- The pieces the `fgets` loop reads a line in: 1023 bytes at a time, as many as the 1024-byte
buffer holds before its NUL terminator, then the rest. -/
def linePieces (l : List Char) : List (List Char) :=
  if l.length ≤ 1023 then [l] else l.take 1023 :: linePieces (l.drop 1023)
termination_by l.length
decreasing_by simp_wf; omega

theorem linePieces_of_length_le {l : List Char} (h : l.length ≤ 1023) : linePieces l = [l] := by
  rw [linePieces, if_pos h]

/-- A piece of 1023 bytes in front of a line is read on its own, then the rest of the line. -/
theorem foldlM_linePieces_append {a : List Char} (ha : a.length = 1023) (x : List Char)
    (st : LoopState) :
    (linePieces (a ++ x)).foldlM dispatch st =
      dispatch st a >>= fun st' => (linePieces x).foldlM dispatch st' := by
  rcases eq_or_ne x [] with rfl | hx
  · rw [List.append_nil, linePieces_of_length_le ha.le, linePieces_of_length_le (by simp)]
    simp
  · have hlen : 1023 < (a ++ x).length := by
      have := List.length_pos.mpr hx
      rw [List.length_append]; omega
    rw [linePieces, if_neg (by omega), List.take_left' ha, List.drop_left' ha, List.foldlM_cons]

/-- **Buffers and pieces of lines.** On a stream `S` with no NUL byte, the loop over the buffers
`fgets` reads is `dispatch` over the lines of `S`, each cut into pieces of 1023 bytes: a longer
line is read as several commands. -/
theorem commandLoop_pieces {S : List Char} (hnul : '\x00' ∉ S) (fuel : Nat)
    (hfuel : S.length ≤ fuel) (st : LoopState) :
    commandLoop st (readBuffers 1024 fuel S) =
      ((split S ['\n']).flatMap linePieces).foldlM dispatch st := by
  induction fuel using Nat.strong_induction_on generalizing S st with
  | _ fuel ih =>
  rcases eq_or_ne S [] with rfl | hne
  · simp [commandLoop, linePieces_of_length_le]
  obtain ⟨f, rfl⟩ : ∃ f, fuel = f + 1 := ⟨fuel - 1, by have := List.length_pos.mpr hne; omega⟩
  rw [readBuffers_succ hne, commandLoop, List.foldlM_cons]
  by_cases hA : 1023 ≤ S.length ∧ ∀ c ∈ S.take 1023, c ∉ ['\n']
  · -- the first 1023 bytes hold no newline: they are one buffer, and the head of a longer line
    obtain ⟨hS, ha⟩ := hA
    have hlen : (S.take 1023).length = 1023 := List.length_take_of_le hS
    have hb : '\x00' ∉ S.drop 1023 := fun h => hnul (List.mem_of_mem_drop h)
    rw [← List.take_append_drop 1023 S, split_append_of_forall_not_mem ha,
      fgetsLine_append_of_length (fun h => ha _ h (List.mem_singleton_self _)) hlen]
    have := ih f (by omega) hb (by simp at hfuel ⊢; omega)
    obtain ⟨x, xs, hx⟩ := List.exists_cons_of_ne_nil (split_ne_nil (S.drop 1023) ['\n'])
    simp only [hx, commandLoop] at this
    simp only [this, hx, List.modifyHead_cons, List.flatMap_cons, List.foldlM_append,
      foldlM_linePieces_append hlen, bind_assoc]
  · by_cases hS : '\n' ∈ S
    · -- a newline within the first 1023 bytes ends the buffer and the line
      obtain ⟨l, r, rfl, hl⟩ := exists_eq_append_cons_of_mem hS
      have hlt : l.length < 1023 := by
        refine Nat.lt_of_not_le fun hge => hA ⟨by simp; omega, fun c hc hcn => hl ?_⟩
        rw [List.take_append_of_le_length hge, List.mem_singleton.mp hcn] at hc
        exact List.mem_of_mem_take hc
      have hnul_l : '\x00' ∉ l := fun h => hnul (List.mem_append_left _ h)
      have hr := ih f (by omega) (fun h => hnul (List.mem_append_right _ (List.mem_cons_of_mem _ h)))
        (by simp at hfuel; omega)
      have hsplit : split (l ++ '\n' :: r) ['\n'] = l :: split r ['\n'] := by
        rw [split_append_of_mem (List.mem_singleton_self _),
          split_eq_singleton fun c hc hcn => hl (by rwa [List.mem_singleton.mp hcn] at hc)]
        rfl
      simp only [commandLoop] at hr
      rw [fgetsLine_append_newline hl hlt, dispatch_newlineTail st (.inr rfl) hnul_l, hsplit,
        List.flatMap_cons, linePieces_of_length_le hlt.le, List.singleton_append, List.foldlM_cons]
      simp only [hr]
    · -- no newline and fewer than 1023 bytes: the whole stream is the last buffer
      have hlt : S.length < 1023 := Nat.lt_of_not_le fun hge => hA ⟨hge, fun c hc hcn =>
        hS (by rw [List.mem_singleton.mp hcn] at hc; exact List.mem_of_mem_take hc)⟩
      rw [fgetsLine_of_length_le hS hlt.le,
        split_eq_singleton fun c hc hcn => hS (by rwa [List.mem_singleton.mp hcn] at hc)]
      simp [linePieces_of_length_le hlt.le]

/-- **Buffers and lines.** When every line of the stream `S` fits the 1024-byte buffer with its
newline and `S` holds no NUL byte, the loop over the buffers `fgets` reads is `dispatch` over the
lines of `S`. -/
theorem commandLoop_lines {S : List Char} (hnul : '\x00' ∉ S)
    (hlen : ∀ l ∈ split S ['\n'], l.length ≤ 1023) (fuel : Nat) (hfuel : S.length ≤ fuel)
    (st : LoopState) :
    commandLoop st (readBuffers 1024 fuel S) = (split S ['\n']).foldlM dispatch st := by
  rw [commandLoop_pieces hnul fuel hfuel st,
    List.flatMap_congr fun l hl => linePieces_of_length_le (hlen l hl), List.flatMap_singleton']

/-! ## The loop, line by line -/

/-- The first token of a line, as the loop reads it. -/
def firstToken (line : List Char) : Option (List Char) := (strtok line " \n".toList).1

/-- What a `log` line asks the loop to log: the rest of the line after its first token. -/
def logText (line : List Char) : Option (List Char) :=
  if firstToken line = some "log".toList then (strtok (strtok line " \n".toList).2 "\n".toList).1
  else none

/-- The command `command`, with `rest` after it, carries every argument it fetches: `progress` a
fraction and a number of seconds, `set_progress` a fraction, `log` a text. -/
def commandArguments (command : Option (List Char)) (rest : List Char) : Bool :=
  match command with
  | none => true
  | some name =>
    let fractionS := strtok rest " \n".toList
    if name = "progress".toList then fractionS.1.isSome && (strtok fractionS.2 " \n".toList).1.isSome
    else if name = "set_progress".toList then fractionS.1.isSome
    else if name = "log".toList then (strtok rest "\n".toList).1.isSome
    else true

/-- The line carries every argument its command fetches. -/
def carriesArguments (line : List Char) : Bool :=
  let command := strtok line " \n".toList
  commandArguments command.1 command.2

/-- The loop body on a command that carries its arguments. -/
theorem runCommand_ok (st : LoopState) {command : Option (List Char)} {rest : List Char}
    (h : commandArguments command rest) :
    ∃ st', runCommand st command rest = .ok st' ∧
      st'.wipeCache = (st.wipeCache || command == some "wipe_cache".toList) ∧
      st'.retryUpdate = (st.retryUpdate || command == some "retry_update".toList) ∧
      st'.logBuffer = st.logBuffer ++
        (if command = some "log".toList then (strtok rest "\n".toList).1 else none).toList := by
  rcases command with _ | name
  · exact ⟨st, rfl, by simp, by simp, by simp⟩
  simp only [commandArguments] at h
  by_cases hp : name = "progress".toList
  · subst hp
    simp only [if_true, Bool.and_eq_true, Option.isSome_iff_exists] at h
    obtain ⟨⟨f, hf⟩, ⟨s, hs⟩⟩ := h
    exact ⟨{ st with ui := st.ui ++ [.showProgress f s] }, by simp only [runCommand, if_pos, hf, hs],
      by simp, by simp, by simp⟩
  by_cases hsp : name = "set_progress".toList
  · subst hsp
    obtain ⟨f, hf⟩ := Option.isSome_iff_exists.mp (by simpa using h)
    exact ⟨{ st with ui := st.ui ++ [.setProgress f] }, by simp [runCommand, hf], by simp, by simp,
      by simp⟩
  by_cases hl : name = "log".toList
  · subst hl
    obtain ⟨t, ht⟩ := Option.isSome_iff_exists.mp (by simpa using h)
    exact ⟨{ st with logBuffer := st.logBuffer ++ [t] }, by simp [runCommand, ht], by simp, by simp,
      by simp [ht]⟩
  rw [if_neg (by simpa using hl), Option.toList_none, List.append_nil]
  simp only [runCommand, if_neg hp, if_neg hsp, if_neg hl]
  by_cases hu : name = "ui_print".toList
  · subst hu
    rw [if_pos rfl]
    cases (strtok rest "\n".toList).1 <;> exact ⟨_, rfl, by simp, by simp, rfl⟩
  rw [if_neg hu]
  by_cases hw : name = "wipe_cache".toList
  · subst hw
    rw [if_pos rfl]
    exact ⟨_, rfl, by simp, by simp, rfl⟩
  rw [if_neg hw]
  by_cases hc : name = "clear_display".toList
  · subst hc
    rw [if_pos rfl]
    exact ⟨_, rfl, by simp, by simp, rfl⟩
  rw [if_neg hc]
  by_cases he : name = "enable_reboot".toList
  · subst he
    rw [if_pos rfl]
    exact ⟨_, rfl, by simp, by simp, rfl⟩
  rw [if_neg he]
  by_cases hr : name = "retry_update".toList
  · subst hr
    rw [if_pos rfl]
    exact ⟨_, rfl, by simp, by simp, rfl⟩
  rw [if_neg hr]
  simp only [String.toList] at hw hr
  exact ⟨_, rfl, by simp [hw], by simp [hr], rfl⟩

/-- One line that carries its arguments sets the cache flag on `wipe_cache`, the retry flag on
`retry_update`, and logs the text of a `log` line. -/
theorem dispatch_ok (st : LoopState) {line : List Char} (hnul : '\x00' ∉ line)
    (h : carriesArguments line) :
    ∃ st', dispatch st line = .ok st' ∧
      st'.wipeCache = (st.wipeCache || firstToken line == some "wipe_cache".toList) ∧
      st'.retryUpdate = (st.retryUpdate || firstToken line == some "retry_update".toList) ∧
      st'.logBuffer = st.logBuffer ++ (logText line).toList := by
  simpa only [dispatch, cStr_of_not_mem hnul, firstToken, logText] using runCommand_ok st h

/-- A command that misses an argument faults the loop body. -/
theorem runCommand_error (st : LoopState) {command : Option (List Char)} {rest : List Char}
    (h : commandArguments command rest = false) : ∃ f, runCommand st command rest = .error f := by
  rcases command with _ | name
  · cases h
  simp only [commandArguments] at h
  split_ifs at h with hp hsp hl
  · subst hp
    cases hf : (strtok rest " \n".toList).1 <;>
      cases hs : (strtok (strtok rest " \n".toList).2 " \n".toList).1 <;>
      simp_all [runCommand]
  · subst hsp
    cases hf : (strtok rest " \n".toList).1 <;> simp_all [runCommand]
  · subst hl
    cases ht : (strtok rest "\n".toList).1 <;> simp_all [runCommand]

theorem dispatch_error (st : LoopState) {line : List Char} (hnul : '\x00' ∉ line)
    (h : carriesArguments line = false) : ∃ f, dispatch st line = .error f := by
  simpa only [dispatch, cStr_of_not_mem hnul] using runCommand_error st h

/-- **A run of the loop over lines.** Over lines that carry their arguments the loop does not
fault: it sets the cache flag when some line's first token is `wipe_cache`, the retry flag when
some line's is `retry_update`, and logs the text of every `log` line, in order. -/
theorem foldlM_dispatch_ok {lines : List (List Char)} (hnul : ∀ l ∈ lines, '\x00' ∉ l)
    (h : ∀ l ∈ lines, carriesArguments l) (st : LoopState) :
    ∃ st', lines.foldlM dispatch st = .ok st' ∧
      st'.wipeCache = (st.wipeCache || lines.any (firstToken · == some "wipe_cache".toList)) ∧
      st'.retryUpdate = (st.retryUpdate || lines.any (firstToken · == some "retry_update".toList)) ∧
      st'.logBuffer = st.logBuffer ++ lines.filterMap logText := by
  induction lines generalizing st with
  | nil => exact ⟨st, rfl, by simp, by simp, by simp⟩
  | cons l ls ih =>
    obtain ⟨st₁, h₁, w₁, r₁, l₁⟩ := dispatch_ok st (hnul l (.head _)) (h l (.head _))
    obtain ⟨st₂, h₂, w₂, r₂, l₂⟩ :=
      ih (fun x hx => hnul x (.tail _ hx)) (fun x hx => h x (.tail _ hx)) st₁
    refine ⟨st₂, by rw [List.foldlM_cons, h₁]; exact h₂, ?_, ?_, ?_⟩
    · rw [w₂, w₁, List.any_cons, Bool.or_assoc]
    · rw [r₂, r₁, List.any_cons, Bool.or_assoc]
    · rw [l₂, l₁, List.filterMap_cons]
      cases logText l <;> simp

/-- A run over lines that reaches a line missing an argument faults. -/
theorem foldlM_dispatch_error {lines : List (List Char)} (hnul : ∀ l ∈ lines, '\x00' ∉ l)
    (h : ∃ l ∈ lines, carriesArguments l = false) (st : LoopState) :
    ∃ f, lines.foldlM dispatch st = .error f := by
  induction lines generalizing st with
  | nil => simp at h
  | cons l ls ih =>
    rw [List.foldlM_cons]
    cases hd : dispatch st l with
    | error f => exact ⟨f, rfl⟩
    | ok st₁ =>
      have htail : ∃ x ∈ ls, carriesArguments x = false := by
        obtain ⟨x, hx, hxa⟩ := h
        rcases List.mem_cons.mp hx with rfl | hx
        · obtain ⟨f, hf⟩ := dispatch_error st (hnul x (.head _)) hxa
          simp [hf] at hd
        · exact ⟨x, hx, hxa⟩
      exact ih (fun x hx => hnul x (.tail _ hx)) htail st₁

/-- A turn of the loop body that does not fault was on a command that carries its arguments, so
it did what `runCommand_ok` says. -/
theorem runCommand_eq_ok {st st' : LoopState} {command : Option (List Char)} {rest : List Char}
    (h : runCommand st command rest = .ok st') :
    st'.wipeCache = (st.wipeCache || command == some "wipe_cache".toList) ∧
      st'.retryUpdate = (st.retryUpdate || command == some "retry_update".toList) ∧
      st'.logBuffer = st.logBuffer ++
        (if command = some "log".toList then (strtok rest "\n".toList).1 else none).toList := by
  cases ha : commandArguments command rest
  · obtain ⟨f, hf⟩ := runCommand_error st ha
    rw [hf] at h
    cases h
  · obtain ⟨st'', h', hfields⟩ := runCommand_ok st ha
    rw [h] at h'
    cases h'
    exact hfields

/-- **A run of the loop over any buffers.** When the loop does not fault, whatever the buffers
`fgets` read (`NUL` bytes and pieces of long lines included), it has set the cache flag exactly
when some buffer's first token is `wipe_cache`, the retry flag exactly when some buffer's is
`retry_update`, and logged the text of every `log` buffer, in order. -/
theorem commandLoop_eq_ok {st st' : LoopState} {buffers : List (List Char)}
    (h : commandLoop st buffers = .ok st') :
    st'.wipeCache =
        (st.wipeCache || buffers.any fun b => firstToken (cStr b) == some "wipe_cache".toList) ∧
      st'.retryUpdate =
        (st.retryUpdate || buffers.any fun b => firstToken (cStr b) == some "retry_update".toList) ∧
      st'.logBuffer = st.logBuffer ++ buffers.filterMap (logText ∘ cStr) := by
  induction buffers generalizing st with
  | nil => cases h; simp
  | cons b bs ih =>
    rw [commandLoop, List.foldlM_cons] at h
    cases hd : dispatch st b with
    | error f => rw [hd] at h; cases h
    | ok st₁ =>
      rw [hd] at h
      obtain ⟨w₁, r₁, l₁⟩ := runCommand_eq_ok hd
      obtain ⟨w₂, r₂, l₂⟩ := ih h
      refine ⟨?_, ?_, ?_⟩
      · rw [w₂, w₁, List.any_cons, Bool.or_assoc]; rfl
      · rw [r₂, r₁, List.any_cons, Bool.or_assoc]; rfl
      · rw [l₂, l₁, List.filterMap_cons, List.append_assoc]
        simp only [Function.comp, logText, firstToken]
        split <;> cases (strtok (strtok (cStr b) " \n".toList).2 "\n".toList).1 <;> rfl

/-- **When the loop faults**, over any buffers: exactly when some buffer's command misses an
argument. -/
theorem commandLoop_error_iff (st : LoopState) (buffers : List (List Char)) :
    (∃ f, commandLoop st buffers = .error f) ↔ ∃ b ∈ buffers, carriesArguments (cStr b) = false := by
  induction buffers generalizing st with
  | nil => exact iff_of_false (by rintro ⟨f, ⟨⟩⟩) (by simp)
  | cons b bs ih =>
    rw [commandLoop, List.foldlM_cons]
    cases hc : carriesArguments (cStr b)
    · obtain ⟨f, hf⟩ := runCommand_error st hc
      exact iff_of_true ⟨f, by rw [show dispatch st b = .error f from hf]; rfl⟩ ⟨b, .head _, hc⟩
    · obtain ⟨st', hd, -⟩ := runCommand_ok st hc
      rw [show dispatch st b = .ok st' from hd]
      show (∃ f, commandLoop st' bs = .error f) ↔ _
      rw [ih st']
      simp [hc]

/-- A `strtok` token holds none of the delimiters. -/
theorem not_mem_strtok {s ds t : List Char} (h : (strtok s ds).1 = some t) {d : Char}
    (hd : d ∈ ds) : d ∉ t := by
  unfold strtok at h
  split at h
  · cases h
  · cases h
    intro hm
    simpa [hd] using List.mem_takeWhile_imp hm

/-- The text a `log` command logs is one line. -/
theorem newline_not_mem_logText {line t : List Char} (h : logText line = some t) : '\n' ∉ t := by
  unfold logText at h
  split at h
  · exact not_mem_strtok h (List.mem_singleton_self _)
  · cases h

theorem strtok_of_forall_not_mem {s delims : List Char} (hs : s ≠ []) (h : ∀ c ∈ s, c ∉ delims) :
    strtok s delims = (some s, []) := by
  obtain ⟨c, t, rfl⟩ := List.exists_cons_of_ne_nil hs
  have hd : (c :: t).dropWhile (· ∈ delims) = c :: t :=
    List.dropWhile_cons_of_neg (by simpa using h c (.head _))
  simp only [strtok, hd]
  rw [List.takeWhile_eq_self_iff.mpr (by simpa using h),
    List.dropWhile_eq_nil_iff.mpr (by simpa using h)]
  rfl

/-- A token longer than every command name is an unknown command: the loop ignores it. -/
theorem runCommand_of_length (st : LoopState) {name : List Char} (h : 13 < name.length)
    (rest : List Char) : runCommand st (some name) rest = .ok st := by
  have hne : ∀ w : List Char, w.length ≤ 13 → name ≠ w := fun w hw e => by subst e; omega
  simp only [runCommand]
  rw [if_neg, if_neg, if_neg, if_neg, if_neg, if_neg, if_neg, if_neg] <;> exact hne _ (by decide)

theorem commandArguments_of_length {name : List Char} (h : 13 < name.length) (rest : List Char) :
    commandArguments (some name) rest := by
  have hne : ∀ w : List Char, w.length ≤ 13 → name ≠ w := fun w hw e => by subst e; omega
  simp only [commandArguments]
  rw [if_neg, if_neg, if_neg] <;> exact hne _ (by decide)

/-! ## `try_update_binary` -/

/-- The update binary's process as `try_update_binary` meets it: the write end `pipefd[1]` of the
status pipe, whether `fork` succeeds, the bytes the child writes to the pipe before closing it,
and the status `waitpid` reports. -/
structure UpdateProcess where
  statusFd : Nat
  forkOk : Bool
  output : List Char
  status : Nat

/-- What `try_update_binary` leaves: its result, `*wipe_cache`, `log_buffer` and the UI calls of
the command loop. -/
structure UpdateOutcome where
  result : InstallResult
  wipeCache : Bool
  logBuffer : List (List Char)
  ui : List UiCall

/-- `try_update_binary`. The loop reads the pipe until the child closes it; each `fgets` call
consumes a byte at least, so the length of the output bounds the number of buffers. -/
def tryUpdateBinary (updater : Updater) (env : CommandEnv) (proc : UpdateProcess)
    (path : List Char) (zip : ZipArchive) (wipeCache : Bool) (logBuffer : List (List Char))
    (retryCount : Int) : Except Fault UpdateOutcome :=
  let logBuffer := readSourceTargetBuild zip logBuffer
  match updateBinaryCommand updater env path zip retryCount proc.statusFd with
  | .error ret => .ok ⟨ret, wipeCache, logBuffer, []⟩
  | .ok _ =>
    if !proc.forkOk then .ok ⟨.error, wipeCache, logBuffer, []⟩
    else
      (commandLoop ⟨false, false, logBuffer, []⟩
          (readBuffers 1024 proc.output.length proc.output)).map
        fun st => ⟨terminalStatus st.retryUpdate proc.status, st.wipeCache, st.logBuffer, st.ui⟩

theorem tryUpdateBinary_of_ok {updater : Updater} {env : CommandEnv} {proc : UpdateProcess}
    {path : List Char} {zip : ZipArchive} {retryCount : Int} {args : List (List Char)}
    (hcmd : updateBinaryCommand updater env path zip retryCount proc.statusFd = .ok args)
    (hfork : proc.forkOk = true) (wipeCache : Bool) (logBuffer : List (List Char)) :
    tryUpdateBinary updater env proc path zip wipeCache logBuffer retryCount =
      (commandLoop ⟨false, false, readSourceTargetBuild zip logBuffer, []⟩
          (readBuffers 1024 proc.output.length proc.output)).map
        fun st => ⟨terminalStatus st.retryUpdate proc.status, st.wipeCache, st.logBuffer, st.ui⟩ := by
  simp [tryUpdateBinary, hcmd, hfork]

/-- When the command line cannot be built, `try_update_binary` returns its result at once, with
`*wipe_cache` untouched and no UI call. -/
theorem tryUpdateBinary_of_error {updater : Updater} {env : CommandEnv} {proc : UpdateProcess}
    {path : List Char} {zip : ZipArchive} {retryCount : Int} {ret : InstallResult}
    (hcmd : updateBinaryCommand updater env path zip retryCount proc.statusFd = .error ret)
    (wipeCache : Bool) (logBuffer : List (List Char)) :
    tryUpdateBinary updater env proc path zip wipeCache logBuffer retryCount =
      .ok ⟨ret, wipeCache, readSourceTargetBuild zip logBuffer, []⟩ := by
  simp [tryUpdateBinary, hcmd]

theorem terminalStatus_eq_retry_iff (r : Bool) (status : Nat) :
    terminalStatus r status = .retry ↔ r = true := by
  cases r <;> simp [terminalStatus]; split_ifs <;> simp

theorem terminalStatus_false_eq_success_iff (status : Nat) :
    terminalStatus false status = .success ↔ wIfExited status ∧ wExitStatus status = 0 := by
  cases hw : wIfExited status <;> by_cases he : wExitStatus status = 0 <;> simp [terminalStatus, *]

theorem terminalStatus_false_eq_error_iff (status : Nat) :
    terminalStatus false status = .error ↔ ¬ (wIfExited status ∧ wExitStatus status = 0) := by
  cases hw : wIfExited status <;> by_cases he : wExitStatus status = 0 <;> simp [terminalStatus, *]

theorem terminalStatus_eq_success_iff (r : Bool) (status : Nat) :
    terminalStatus r status = .success ↔
      r = false ∧ wIfExited status = true ∧ wExitStatus status = 0 := by
  cases r
  · simp [terminalStatus_false_eq_success_iff]
  · simp [terminalStatus]

/-- The three ways `try_update_binary` returns: the command line cannot be built, the fork fails,
or the command loop runs to the end of the child's output. -/
theorem tryUpdateBinary_eq_ok {updater : Updater} {env : CommandEnv} {proc : UpdateProcess}
    {path : List Char} {zip : ZipArchive} {wipeCache : Bool} {logBuffer : List (List Char)}
    {retryCount : Int} {out : UpdateOutcome}
    (h : tryUpdateBinary updater env proc path zip wipeCache logBuffer retryCount = .ok out) :
    (∃ ret, updateBinaryCommand updater env path zip retryCount proc.statusFd = .error ret ∧
        out = ⟨ret, wipeCache, readSourceTargetBuild zip logBuffer, []⟩) ∨
      (∃ args, updateBinaryCommand updater env path zip retryCount proc.statusFd = .ok args) ∧
        (proc.forkOk = false ∧ out = ⟨.error, wipeCache, readSourceTargetBuild zip logBuffer, []⟩ ∨
          proc.forkOk = true ∧ ∃ st,
            commandLoop ⟨false, false, readSourceTargetBuild zip logBuffer, []⟩
              (readBuffers 1024 proc.output.length proc.output) = .ok st ∧
            out =
              ⟨terminalStatus st.retryUpdate proc.status, st.wipeCache, st.logBuffer, st.ui⟩) := by
  cases hcmd : updateBinaryCommand updater env path zip retryCount proc.statusFd with
  | error ret =>
    rw [tryUpdateBinary_of_error hcmd] at h
    exact .inl ⟨ret, rfl, (Except.ok.inj h).symm⟩
  | ok args =>
    refine .inr ⟨⟨args, rfl⟩, ?_⟩
    cases hfork : proc.forkOk
    · simp only [tryUpdateBinary, hcmd, hfork, Bool.not_false, if_true, Except.ok.injEq] at h
      exact .inl ⟨rfl, h.symm⟩
    rw [tryUpdateBinary_of_ok hcmd hfork] at h
    cases hl : commandLoop ⟨false, false, readSourceTargetBuild zip logBuffer, []⟩
        (readBuffers 1024 proc.output.length proc.output) with
    | error f => rw [hl] at h; cases h
    | ok st => rw [hl] at h; exact .inr ⟨rfl, st, rfl, (Except.ok.inj h).symm⟩

/-- `try_update_binary` starts the child: the command line is built and `fork` succeeds. -/
def ChildStarts (updater : Updater) (env : CommandEnv) (proc : UpdateProcess) (path : List Char)
    (zip : ZipArchive) (retryCount : Int) : Prop :=
  (∃ args, updateBinaryCommand updater env path zip retryCount proc.statusFd = .ok args) ∧
    proc.forkOk = true

/-- The child sends `command`: some buffer the `fgets` loop reads from `output` has it as its
first token. -/
def Sends (output command : List Char) : Prop :=
  ∃ b ∈ readBuffers 1024 output.length output, firstToken (cStr b) = some command

theorem any_readBuffers_eq_true_iff (output command : List Char) :
    (readBuffers 1024 output.length output).any (fun b => firstToken (cStr b) == some command) =
      true ↔ Sends output command := by
  simp [Sends]

/-- **When `try_update_binary` succeeds**, over any output of the child: exactly when the child
starts, never sends `retry_update`, and exits normally with status 0. -/
theorem tryUpdateBinary_eq_success_iff {updater : Updater} {env : CommandEnv}
    {proc : UpdateProcess} {path : List Char} {zip : ZipArchive} {wipeCache : Bool}
    {logBuffer : List (List Char)} {retryCount : Int} {out : UpdateOutcome}
    (h : tryUpdateBinary updater env proc path zip wipeCache logBuffer retryCount = .ok out) :
    out.result = .success ↔
      ChildStarts updater env proc path zip retryCount ∧ ¬ Sends proc.output "retry_update".toList ∧
        wIfExited proc.status = true ∧ wExitStatus proc.status = 0 := by
  rcases tryUpdateBinary_eq_ok h with ⟨ret, hcmd, rfl⟩ | ⟨hcmd, ⟨hfork, rfl⟩ | ⟨hfork, st, hl, rfl⟩⟩
  · rcases updateBinaryCommand_error_cases hcmd with rfl | rfl <;> simp [ChildStarts, hcmd]
  · simp [ChildStarts, hfork]
  · simp only [(commandLoop_eq_ok hl).2.1, Bool.false_or, terminalStatus_eq_success_iff,
      Bool.eq_false_iff, ne_eq, any_readBuffers_eq_true_iff]
    exact ⟨fun hs => ⟨⟨hcmd, hfork⟩, hs⟩, fun hs => hs.2⟩

/-- **What the child's commands decide**, over any output. Once the child starts, the result is
`INSTALL_RETRY` exactly when it sends `retry_update`, and `*wipe_cache`, reset before the loop,
ends true exactly when it sends `wipe_cache`. Otherwise the result is never `INSTALL_RETRY` and
`*wipe_cache` is left as it was. -/
theorem tryUpdateBinary_flags {updater : Updater} {env : CommandEnv} {proc : UpdateProcess}
    {path : List Char} {zip : ZipArchive} {wipeCache : Bool} {logBuffer : List (List Char)}
    {retryCount : Int} {out : UpdateOutcome}
    (h : tryUpdateBinary updater env proc path zip wipeCache logBuffer retryCount = .ok out) :
    (out.result = .retry ↔
        ChildStarts updater env proc path zip retryCount ∧
          Sends proc.output "retry_update".toList) ∧
      (ChildStarts updater env proc path zip retryCount →
        (out.wipeCache = true ↔ Sends proc.output "wipe_cache".toList)) ∧
      (¬ ChildStarts updater env proc path zip retryCount → out.wipeCache = wipeCache) := by
  rcases tryUpdateBinary_eq_ok h with ⟨ret, hcmd, rfl⟩ | ⟨hcmd, ⟨hfork, rfl⟩ | ⟨hfork, st, hl, rfl⟩⟩
  · have hnot : ¬ ChildStarts updater env proc path zip retryCount := fun ⟨⟨args, hc⟩, _⟩ => by
      rw [hc] at hcmd
      cases hcmd
    refine ⟨iff_of_false ?_ fun hs => hnot hs.1, fun hs => absurd hs hnot, fun _ => rfl⟩
    rcases updateBinaryCommand_error_cases hcmd with rfl | rfl <;> nofun
  · have hnot : ¬ ChildStarts updater env proc path zip retryCount := fun hs => by
      rw [hs.2] at hfork
      cases hfork
    exact ⟨iff_of_false nofun fun hs => hnot hs.1, fun hs => absurd hs hnot, fun _ => rfl⟩
  · obtain ⟨hw, hr, -⟩ := commandLoop_eq_ok hl
    have hstarts : ChildStarts updater env proc path zip retryCount := ⟨hcmd, hfork⟩
    refine ⟨?_, fun _ => ?_, fun hnot => absurd hstarts hnot⟩
    · rw [terminalStatus_eq_retry_iff, hr, Bool.false_or, any_readBuffers_eq_true_iff]
      exact ⟨fun hs => ⟨hstarts, hs⟩, fun hs => hs.2⟩
    · rw [hw, Bool.false_or, any_readBuffers_eq_true_iff]

/-- **When `try_update_binary` faults**, over any output of the child: exactly when the child
starts and some buffer the loop reads has a command that misses an argument. -/
theorem tryUpdateBinary_error_iff (updater : Updater) (env : CommandEnv) (proc : UpdateProcess)
    (path : List Char) (zip : ZipArchive) (wipeCache : Bool) (logBuffer : List (List Char))
    (retryCount : Int) :
    (∃ f, tryUpdateBinary updater env proc path zip wipeCache logBuffer retryCount = .error f) ↔
      ChildStarts updater env proc path zip retryCount ∧
        ∃ b ∈ readBuffers 1024 proc.output.length proc.output, carriesArguments (cStr b) = false := by
  cases hcmd : updateBinaryCommand updater env path zip retryCount proc.statusFd with
  | error ret =>
    rw [tryUpdateBinary_of_error hcmd]
    exact iff_of_false (by rintro ⟨f, ⟨⟩⟩) fun ⟨⟨⟨args, hc⟩, _⟩, _⟩ => by
      rw [hcmd] at hc
      cases hc
  | ok args =>
    cases hfork : proc.forkOk
    · have h : tryUpdateBinary updater env proc path zip wipeCache logBuffer retryCount =
          .ok ⟨.error, wipeCache, readSourceTargetBuild zip logBuffer, []⟩ := by
        simp [tryUpdateBinary, hcmd, hfork]
      rw [h]
      exact iff_of_false (by rintro ⟨f, ⟨⟩⟩) fun ⟨⟨_, hf⟩, _⟩ => by
        rw [hfork] at hf
        cases hf
    rw [tryUpdateBinary_of_ok hcmd hfork, ← commandLoop_error_iff]
    cases commandLoop ⟨false, false, readSourceTargetBuild zip logBuffer, []⟩
        (readBuffers 1024 proc.output.length proc.output) <;>
      simp [ChildStarts, hcmd, hfork, Except.map]

/-- Every entry `try_update_binary` adds to the log buffer is one line, whatever the child
writes: the build numbers of the metadata, and the texts of `log` commands, which `strtok` ends at
the first newline. -/
theorem tryUpdateBinary_logBuffer_lines {updater : Updater} {env : CommandEnv}
    {proc : UpdateProcess} {path : List Char} {zip : ZipArchive} {wipeCache : Bool}
    {logBuffer : List (List Char)} {retryCount : Int} {out : UpdateOutcome}
    (h : tryUpdateBinary updater env proc path zip wipeCache logBuffer retryCount = .ok out)
    (hlb : ∀ e ∈ logBuffer, '\n' ∉ e) : ∀ e ∈ out.logBuffer, '\n' ∉ e := by
  have hbuild := @newline_not_mem_readSourceTargetBuild zip _ hlb
  rcases tryUpdateBinary_eq_ok h with ⟨-, -, rfl⟩ | ⟨-, ⟨-, rfl⟩ | ⟨-, st, hl, rfl⟩⟩
  · exact hbuild
  · exact hbuild
  rw [(commandLoop_eq_ok hl).2.2]
  simp only [List.mem_append, List.mem_filterMap, Function.comp]
  rintro e (he | ⟨b, -, hb⟩)
  exacts [hbuild e he, newline_not_mem_logText hb]

/-- **The buffer loop refines the line loop.** Once the command line is built and the child
forked, and when the output holds no NUL byte and no line over 1023 bytes, `try_update_binary`
computes what the loop over the lines of the output computes. -/
theorem tryUpdateBinary_eq_lineLoop {updater : Updater} {env : CommandEnv}
    {proc : UpdateProcess} {path : List Char} {zip : ZipArchive} {wipeCache : Bool}
    {logBuffer : List (List Char)} {retryCount : Int} {args : List (List Char)}
    (hcmd : updateBinaryCommand updater env path zip retryCount proc.statusFd = .ok args)
    (hfork : proc.forkOk = true) (hnul : '\x00' ∉ proc.output)
    (hlen : ∀ l ∈ split proc.output ['\n'], l.length ≤ 1023) :
    tryUpdateBinary updater env proc path zip wipeCache logBuffer retryCount =
      ((split proc.output ['\n']).foldlM dispatch
          ⟨false, false, readSourceTargetBuild zip logBuffer, []⟩).map
        fun st => ⟨terminalStatus st.retryUpdate proc.status, st.wipeCache, st.logBuffer, st.ui⟩ := by
  rw [tryUpdateBinary_of_ok hcmd hfork, commandLoop_lines hnul hlen _ le_rfl]

theorem tryUpdateBinary_eq_lineLoop_sample :
    tryUpdateBinary .legacy ⟨[], "3".toList, true, true⟩
        ⟨5, true, "ui_print hi\nwipe_cache\n".toList, 0⟩ "/sdcard/update.zip".toList
        [⟨"META-INF/com/google/android/update-binary".toList, 0, some "ELF".toList⟩] false [] 0 =
      ((split "ui_print hi\nwipe_cache\n".toList ['\n']).foldlM dispatch ⟨false, false, [], []⟩).map
        fun st => ⟨terminalStatus st.retryUpdate 0, st.wipeCache, st.logBuffer, st.ui⟩ :=
  @tryUpdateBinary_eq_lineLoop .legacy ⟨[], "3".toList, true, true⟩
    ⟨5, true, "ui_print hi\nwipe_cache\n".toList, 0⟩ "/sdcard/update.zip".toList
    [⟨"META-INF/com/google/android/update-binary".toList, 0, some "ELF".toList⟩] false [] 0
    ["/tmp/update_binary".toList, "3".toList, "5".toList, "/sdcard/update.zip".toList]
    rfl rfl (by decide) (by decide)

/-- An output of one line: 1023 bytes of `x`, then `retry_update`, then a newline. -/
theorem split_replicate_retry :
    split (List.replicate 1023 'x' ++ "retry_update\n".toList) ['\n'] =
      [List.replicate 1023 'x' ++ "retry_update".toList, []] := by
  have hline : ∀ c ∈ List.replicate 1023 'x' ++ "retry_update".toList, c ∉ ['\n'] := by
    intro c hc
    rcases List.mem_append.mp hc with hc | hc
    · rw [List.eq_of_mem_replicate hc]
      decide
    · exact (by decide : ∀ c ∈ "retry_update".toList, c ∉ ['\n']) c hc
  rw [show List.replicate 1023 'x' ++ "retry_update\n".toList =
      (List.replicate 1023 'x' ++ "retry_update".toList) ++ '\n' :: [] by
        rw [List.append_assoc]; rfl,
    split_append_of_mem (List.mem_singleton_self _), split_eq_singleton hline]
  rfl

theorem linePieces_replicate_retry :
    linePieces (List.replicate 1023 'x' ++ "retry_update".toList) =
      [List.replicate 1023 'x', "retry_update".toList] := by
  have hlen : (List.replicate 1023 'x').length = 1023 := List.length_replicate _ _
  rw [linePieces, if_neg (by rw [List.length_append, hlen]; decide), List.take_left' hlen,
    List.drop_left' hlen, linePieces_of_length_le (by decide)]

/-- **The buffer loop, on every output.** Once the command line is built and the child forked, on
an output with no NUL byte, `try_update_binary` computes what the loop over the lines of the
output computes, each line cut into the pieces of 1023 bytes `fgets` reads it in. -/
theorem tryUpdateBinary_eq_pieceLoop {updater : Updater} {env : CommandEnv}
    {proc : UpdateProcess} {path : List Char} {zip : ZipArchive} {wipeCache : Bool}
    {logBuffer : List (List Char)} {retryCount : Int} {args : List (List Char)}
    (hcmd : updateBinaryCommand updater env path zip retryCount proc.statusFd = .ok args)
    (hfork : proc.forkOk = true) (hnul : '\x00' ∉ proc.output) :
    tryUpdateBinary updater env proc path zip wipeCache logBuffer retryCount =
      (((split proc.output ['\n']).flatMap linePieces).foldlM dispatch
          ⟨false, false, readSourceTargetBuild zip logBuffer, []⟩).map
        fun st => ⟨terminalStatus st.retryUpdate proc.status, st.wipeCache, st.logBuffer, st.ui⟩ := by
  rw [tryUpdateBinary_of_ok hcmd hfork, commandLoop_pieces hnul _ le_rfl]

/-- A line of 1035 bytes is read as two commands, its first 1023 bytes and then `retry_update`,
each dispatched on its own. -/
theorem tryUpdateBinary_eq_pieceLoop_longLine :
    tryUpdateBinary .legacy ⟨[], "3".toList, true, true⟩
        ⟨5, true, List.replicate 1023 'x' ++ "retry_update\n".toList, 0⟩ "/sdcard/update.zip".toList
        [⟨"META-INF/com/google/android/update-binary".toList, 0, some "ELF".toList⟩] false [] 0 =
      ([List.replicate 1023 'x', "retry_update".toList, []].foldlM dispatch
          ⟨false, false, [], []⟩).map
        fun st => ⟨terminalStatus st.retryUpdate 0, st.wipeCache, st.logBuffer, st.ui⟩ := by
  have hnul : '\x00' ∉ List.replicate 1023 'x' ++ "retry_update\n".toList := fun h => by
    rcases List.mem_append.mp h with h | h
    · exact absurd (List.eq_of_mem_replicate h) (by decide)
    · exact absurd h (by decide)
  refine (tryUpdateBinary_eq_pieceLoop (by rfl) (by rfl) (by exact hnul)).trans ?_
  rw [split_replicate_retry, List.flatMap_cons, List.flatMap_cons, List.flatMap_nil,
    linePieces_replicate_retry, @linePieces_of_length_le [] (by decide)]
  rfl

/-- The terminal status over the lines of the output: `INSTALL_RETRY` exactly when some line is
`retry_update`; otherwise success exactly on a normal exit with status 0. -/
theorem terminalStatus_lines (lines : List (List Char)) (status : Nat) :
    (terminalStatus (lines.any (firstToken · == some "retry_update".toList)) status = .retry ↔
      ∃ l ∈ lines, firstToken l = some "retry_update".toList) ∧
    ((¬ ∃ l ∈ lines, firstToken l = some "retry_update".toList) →
      (terminalStatus (lines.any (firstToken · == some "retry_update".toList)) status = .success ↔
        wIfExited status ∧ wExitStatus status = 0) ∧
      (terminalStatus (lines.any (firstToken · == some "retry_update".toList)) status = .error ↔
        ¬ (wIfExited status ∧ wExitStatus status = 0))) := by
  refine ⟨(terminalStatus_eq_retry_iff _ _).trans (by simp), fun hno => ?_⟩
  have hany : lines.any (firstToken · == some "retry_update".toList) = false := by simpa using hno
  rw [hany]
  exact ⟨terminalStatus_false_eq_success_iff _, terminalStatus_false_eq_error_iff _⟩

/-- The run of the status pipe, summarised: once the command line is built and the child forked,
on an output with no NUL byte, no line over 1023 bytes and every command carrying its arguments,
`try_update_binary` returns the terminal status of its `retry_update` lines, with `*wipe_cache`
set by its `wipe_cache` lines and its `log` lines appended to the log buffer. -/
theorem tryUpdateBinary_run {updater : Updater} {env : CommandEnv} {proc : UpdateProcess}
    {path : List Char} {zip : ZipArchive} {retryCount : Int} {args : List (List Char)}
    (hcmd : updateBinaryCommand updater env path zip retryCount proc.statusFd = .ok args)
    (hfork : proc.forkOk = true) (hargs : ∀ l ∈ split proc.output ['\n'], carriesArguments l)
    (hnul : '\x00' ∉ proc.output) (hlen : ∀ l ∈ split proc.output ['\n'], l.length ≤ 1023)
    (wipeCache : Bool) (logBuffer : List (List Char)) :
    ∃ ui, tryUpdateBinary updater env proc path zip wipeCache logBuffer retryCount = .ok
      ⟨terminalStatus ((split proc.output ['\n']).any (firstToken · == some "retry_update".toList))
          proc.status,
        (split proc.output ['\n']).any (firstToken · == some "wipe_cache".toList),
        readSourceTargetBuild zip logBuffer ++ (split proc.output ['\n']).filterMap logText, ui⟩ := by
  obtain ⟨st, hst, hw, hr, hl⟩ := foldlM_dispatch_ok
    (fun l hl hc => hnul (mem_of_mem_split hl hc)) hargs
    ⟨false, false, readSourceTargetBuild zip logBuffer, []⟩
  refine ⟨st.ui, ?_⟩
  rw [tryUpdateBinary_of_ok hcmd hfork, commandLoop_lines hnul hlen _ le_rfl, hst]
  simp only [Except.map, hw, hr, hl, Bool.false_or]

/-- **The status pipe, line by line.** Once the command line is built and the child forked, and
when the child's output `S` holds no NUL byte, no line of more than 1023 bytes, and every line
carries its command's arguments: `try_update_binary` returns `INSTALL_RETRY` exactly when some
line's first token is `retry_update`, else `INSTALL_SUCCESS` exactly on a normal exit with status
0 and `INSTALL_ERROR` otherwise; `*wipe_cache` ends true exactly when some line's first token is
`wipe_cache`; and the loop appends to `log_buffer` the text of each `log` line, in order. -/
theorem tryUpdateBinary_lines {updater : Updater} {env : CommandEnv} {proc : UpdateProcess}
    {path : List Char} {zip : ZipArchive} {wipeCache : Bool} {logBuffer : List (List Char)}
    {retryCount : Int} {args : List (List Char)}
    (hcmd : updateBinaryCommand updater env path zip retryCount proc.statusFd = .ok args)
    (hfork : proc.forkOk = true) (hargs : ∀ l ∈ split proc.output ['\n'], carriesArguments l)
    (hnul : '\x00' ∉ proc.output) (hlen : ∀ l ∈ split proc.output ['\n'], l.length ≤ 1023) :
    ∃ out, tryUpdateBinary updater env proc path zip wipeCache logBuffer retryCount = .ok out ∧
      (out.result = .retry ↔
        ∃ l ∈ split proc.output ['\n'], firstToken l = some "retry_update".toList) ∧
      ((¬ ∃ l ∈ split proc.output ['\n'], firstToken l = some "retry_update".toList) →
        (out.result = .success ↔ wIfExited proc.status ∧ wExitStatus proc.status = 0) ∧
        (out.result = .error ↔ ¬ (wIfExited proc.status ∧ wExitStatus proc.status = 0))) ∧
      (out.wipeCache = true ↔
        ∃ l ∈ split proc.output ['\n'], firstToken l = some "wipe_cache".toList) ∧
      out.logBuffer =
        readSourceTargetBuild zip logBuffer ++ (split proc.output ['\n']).filterMap logText := by
  obtain ⟨ui, hrun⟩ := tryUpdateBinary_run hcmd hfork hargs hnul hlen wipeCache logBuffer
  have ht := terminalStatus_lines (split proc.output ['\n']) proc.status
  exact ⟨_, hrun, ht.1, ht.2, by simp, rfl⟩

theorem tryUpdateBinary_lines_retry :
    ∃ out, tryUpdateBinary .legacy ⟨[], "3".toList, true, true⟩
        ⟨5, true, "log done\nretry_update\n".toList, 0⟩ "/sdcard/update.zip".toList
        [⟨"META-INF/com/google/android/update-binary".toList, 0, some "ELF".toList⟩] false [] 0 =
      .ok out ∧ out.result = .retry ∧ out.logBuffer = ["done".toList] := by
  obtain ⟨out, h, hr, -, -, hl⟩ := @tryUpdateBinary_lines .legacy ⟨[], "3".toList, true, true⟩
    ⟨5, true, "log done\nretry_update\n".toList, 0⟩ "/sdcard/update.zip".toList
    [⟨"META-INF/com/google/android/update-binary".toList, 0, some "ELF".toList⟩] false [] 0
    ["/tmp/update_binary".toList, "3".toList, "5".toList, "/sdcard/update.zip".toList]
    rfl rfl (by decide) (by decide) (by decide)
  exact ⟨out, h, hr.mpr (by decide), by rw [hl]; rfl⟩

/-- A line longer than the buffer is read as two buffers: the 1023 bytes of the first line here
are an unknown command, and the rest of it, `retry_update`, asks for a retry. -/
theorem tryUpdateBinary_split_line_retry :
    (∃ args, updateBinaryCommand .legacy ⟨[], "3".toList, true, true⟩ "/sdcard/update.zip".toList
        [⟨"META-INF/com/google/android/update-binary".toList, 0, some "ELF".toList⟩] 0 5 = .ok args) ∧
    (∀ l ∈ split (List.replicate 1023 'x' ++ "retry_update\n".toList) ['\n'], carriesArguments l) ∧
    ¬ (∃ l ∈ split (List.replicate 1023 'x' ++ "retry_update\n".toList) ['\n'],
        firstToken l = some "retry_update".toList) ∧
    (tryUpdateBinary .legacy ⟨[], "3".toList, true, true⟩
        ⟨5, true, List.replicate 1023 'x' ++ "retry_update\n".toList, 0⟩ "/sdcard/update.zip".toList
        [⟨"META-INF/com/google/android/update-binary".toList, 0, some "ELF".toList⟩] false [] 0).map
      (·.result) = .ok .retry := by
  have hcmd : updateBinaryCommand .legacy ⟨[], "3".toList, true, true⟩ "/sdcard/update.zip".toList
      [⟨"META-INF/com/google/android/update-binary".toList, 0, some "ELF".toList⟩] 0 5 =
      .ok ["/tmp/update_binary".toList, "3".toList, "5".toList, "/sdcard/update.zip".toList] := rfl
  have hR : ∀ c ∈ List.replicate 1023 'x', c ∉ " \n".toList ∧ c ∉ ['\n'] ∧ c ≠ '\x00' := by
    intro c hc; rw [List.eq_of_mem_replicate hc]; decide
  have hline : ∀ c ∈ List.replicate 1023 'x' ++ "retry_update".toList, c ∉ " \n".toList := by
    intro c hc
    rcases List.mem_append.mp hc with hc | hc
    · exact (hR c hc).1
    · exact (by decide : ∀ c ∈ "retry_update".toList, c ∉ " \n".toList) c hc
  have hlen : 13 < (List.replicate 1023 'x' ++ "retry_update".toList).length := by
    rw [List.length_append, List.length_replicate]; decide
  have hfirst : strtok (List.replicate 1023 'x' ++ "retry_update".toList) " \n".toList =
      (some (List.replicate 1023 'x' ++ "retry_update".toList), []) :=
    strtok_of_forall_not_mem (List.cons_ne_nil _ _) hline
  refine ⟨⟨_, hcmd⟩, ?_, ?_, ?_⟩
  · rw [split_replicate_retry]
    intro l hl
    rcases List.mem_cons.mp hl with rfl | hl
    · simp only [carriesArguments, hfirst]
      exact commandArguments_of_length hlen []
    · rcases List.mem_singleton.mp hl with rfl
      rfl
  · rw [split_replicate_retry]
    rintro ⟨l, hl, hfl⟩
    rcases List.mem_cons.mp hl with rfl | hl
    · rw [firstToken, hfirst, Option.some.injEq] at hfl
      rw [hfl] at hlen
      exact absurd hlen (by decide)
    · rcases List.mem_singleton.mp hl with rfl
      exact absurd hfl (by decide)
  · have hS : (List.replicate 1023 'x' ++ "retry_update\n".toList).length = 1034 + 1 + 1 := by
      rw [List.length_append, List.length_replicate]; rfl
    have hx : dispatch ⟨false, false, [], []⟩ (List.replicate 1023 'x') =
        .ok ⟨false, false, [], []⟩ := by
      have hne : List.replicate 1023 'x' ≠ [] := List.cons_ne_nil _ _
      rw [dispatch, cStr_of_not_mem fun h => (hR _ h).2.2 rfl,
        strtok_of_forall_not_mem hne fun c hc => (hR c hc).1]
      exact runCommand_of_length _ (by rw [List.length_replicate]; decide) []
    have hne : List.replicate 1023 'x' ++ "retry_update\n".toList ≠ [] := List.cons_ne_nil _ _
    rw [tryUpdateBinary_of_ok hcmd rfl, hS, readBuffers_succ hne,
      fgetsLine_append_of_length (fun h => (hR '\n' h).2.1 (.head _)) (List.length_replicate _ _),
      readBuffers_succ (by decide : "retry_update\n".toList ≠ [])]
    have hrs : readSourceTargetBuild
        [⟨"META-INF/com/google/android/update-binary".toList, 0, some "ELF".toList⟩] [] = [] := rfl
    simp only [hrs, commandLoop, List.foldlM_cons, hx]
    rfl
/-- **A line without its arguments faults the loop.** Once the command line is built and the
child forked, and when the output holds no NUL byte and no line over 1023 bytes,
`try_update_binary` hands a `NULL` token on exactly when some line misses an argument of its
command. -/
theorem tryUpdateBinary_fault_iff {updater : Updater} {env : CommandEnv} {proc : UpdateProcess}
    {path : List Char} {zip : ZipArchive} {wipeCache : Bool} {logBuffer : List (List Char)}
    {retryCount : Int} {args : List (List Char)}
    (hcmd : updateBinaryCommand updater env path zip retryCount proc.statusFd = .ok args)
    (hfork : proc.forkOk = true) (hnul : '\x00' ∉ proc.output)
    (hlen : ∀ l ∈ split proc.output ['\n'], l.length ≤ 1023) :
    (∃ f, tryUpdateBinary updater env proc path zip wipeCache logBuffer retryCount = .error f) ↔
      ∃ l ∈ split proc.output ['\n'], carriesArguments l = false := by
  have hnul' : ∀ l ∈ split proc.output ['\n'], '\x00' ∉ l :=
    fun l hl hc => hnul (mem_of_mem_split hl hc)
  rw [tryUpdateBinary_of_ok hcmd hfork, commandLoop_lines hnul hlen _ le_rfl]
  constructor
  · rintro ⟨f, hf⟩
    by_contra hall
    obtain ⟨st, hst, -⟩ := foldlM_dispatch_ok hnul' (by simpa using hall)
      ⟨false, false, readSourceTargetBuild zip logBuffer, []⟩
    rw [hst] at hf
    cases hf
  · intro h
    obtain ⟨f, hf⟩ := foldlM_dispatch_error hnul' h ⟨false, false, readSourceTargetBuild zip logBuffer, []⟩
    exact ⟨f, by rw [hf]; rfl⟩

theorem tryUpdateBinary_fault_iff_progress :
    (∃ f, tryUpdateBinary .legacy ⟨[], "3".toList, true, true⟩ ⟨5, true, "progress 0.5\n".toList, 0⟩
        "/sdcard/update.zip".toList
        [⟨"META-INF/com/google/android/update-binary".toList, 0, some "ELF".toList⟩] false [] 0 =
      .error f) :=
  (@tryUpdateBinary_fault_iff .legacy ⟨[], "3".toList, true, true⟩
    ⟨5, true, "progress 0.5\n".toList, 0⟩ "/sdcard/update.zip".toList
    [⟨"META-INF/com/google/android/update-binary".toList, 0, some "ELF".toList⟩] false [] 0
    ["/tmp/update_binary".toList, "3".toList, "5".toList, "/sdcard/update.zip".toList]
    rfl rfl (by decide) (by decide)).mpr ⟨"progress 0.5".toList, by decide, by decide⟩

/-- The loop hands `strtof`, `strtol` and `std::string` a `NULL` token on a `progress`,
`set_progress` or `log` line without its arguments. -/
theorem tryUpdateBinary_missing_argument :
    tryUpdateBinary .legacy ⟨[], "3".toList, true, true⟩ ⟨5, true, "progress\n".toList, 0⟩
        "/sdcard/update.zip".toList
        [⟨"META-INF/com/google/android/update-binary".toList, 0, some "ELF".toList⟩] false [] 0 =
      .error .nullToStrtof ∧
    tryUpdateBinary .legacy ⟨[], "3".toList, true, true⟩ ⟨5, true, "progress 0.5\n".toList, 0⟩
        "/sdcard/update.zip".toList
        [⟨"META-INF/com/google/android/update-binary".toList, 0, some "ELF".toList⟩] false [] 0 =
      .error .nullToStrtol ∧
    tryUpdateBinary .legacy ⟨[], "3".toList, true, true⟩ ⟨5, true, "set_progress\n".toList, 0⟩
        "/sdcard/update.zip".toList
        [⟨"META-INF/com/google/android/update-binary".toList, 0, some "ELF".toList⟩] false [] 0 =
      .error .nullToStrtof ∧
    tryUpdateBinary .legacy ⟨[], "3".toList, true, true⟩ ⟨5, true, "log\n".toList, 0⟩
        "/sdcard/update.zip".toList
        [⟨"META-INF/com/google/android/update-binary".toList, 0, some "ELF".toList⟩] false [] 0 =
      .error .nullToString :=
  ⟨rfl, rfl, rfl, rfl⟩

end OtaRecovery
