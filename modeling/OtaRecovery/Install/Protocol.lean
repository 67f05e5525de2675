import OtaRecovery.Install.Supervisor

/-!
# The status pipe as a protocol

The comment before the fork in `try_update_binary` documents the commands the update binary
writes to the status pipe, one to a line (`progress`, `set_progress`, `ui_print`, `wipe_cache`,
`clear_display`, `enable_reboot`); the loop also reads `retry_update` and `log`. The loop reads a
command and performs it in one pass. Here the two are separated: a line is read as a tagged
command, and each command has a fixed effect on the flags, the log buffer and the UI.

* `readCommand` reads a line as a `StatusCommand`, and fails when the command misses an argument;
  `StatusCommand.apply` is the table of effects.
* `runCommand_refines`, `dispatch_refines`: one turn of the loop performs the command its line
  reads as, and faults exactly when the line does not read as one.
* `foldlM_dispatch_refines`: the loop over lines is the protocol run over their commands, and
  `foldl_apply` says what such a run does: each flag is set when some command asks for it, and the
  log texts and the UI calls are those of the commands, in order.
* `tryUpdateBinary_protocol`: on an output with no NUL byte and no line over 1023 bytes,
  `try_update_binary` returns what the protocol gives on the commands of the output's lines.
-/

namespace OtaRecovery

/-- A command of the status pipe. `ignored` stands for a blank line or a command the loop does not
know. -/
inductive StatusCommand
  | progress (fraction seconds : List Char)
  | setProgress (fraction : List Char)
  | uiPrint (text : List Char)
  | wipeCache
  | clearDisplay
  | enableReboot
  | retryUpdate
  | log (text : List Char)
  | ignored
  deriving DecidableEq, Repr

namespace StatusCommand

/-- The effect of a command on the supervisor's state. -/
def apply (st : LoopState) : StatusCommand → LoopState
  | progress fraction seconds => { st with ui := st.ui ++ [.showProgress fraction seconds] }
  | setProgress fraction => { st with ui := st.ui ++ [.setProgress fraction] }
  | uiPrint text => { st with ui := st.ui ++ [.printOnScreenOnly text] }
  | wipeCache => { st with wipeCache := true }
  | clearDisplay => { st with ui := st.ui ++ [.setBackgroundNone] }
  | enableReboot => { st with ui := st.ui ++ [.setEnableReboot true] }
  | retryUpdate => { st with retryUpdate := true }
  | log text => { st with logBuffer := st.logBuffer ++ [text] }
  | ignored => st

/-- The UI calls a command makes. -/
def uiCalls : StatusCommand → List UiCall
  | progress fraction seconds => [.showProgress fraction seconds]
  | setProgress fraction => [.setProgress fraction]
  | uiPrint text => [.printOnScreenOnly text]
  | clearDisplay => [.setBackgroundNone]
  | enableReboot => [.setEnableReboot true]
  | _ => []

/-- The text a command adds to the log buffer. -/
def logEntry : StatusCommand → Option (List Char)
  | log text => some text
  | _ => none

/-- Each command acts on the fields of the state independently. -/
theorem apply_eq (st : LoopState) (c : StatusCommand) :
    apply st c = ⟨st.wipeCache || decide (c = wipeCache),
      st.retryUpdate || decide (c = retryUpdate), st.logBuffer ++ c.logEntry.toList,
      st.ui ++ c.uiCalls⟩ := by
  cases c <;> simp [apply, uiCalls, logEntry]

/-- **A run of the protocol.** Applying commands in turn sets each flag when some command asks
for it, and appends their log texts and their UI calls in order. -/
theorem foldl_apply (cmds : List StatusCommand) (st : LoopState) :
    cmds.foldl apply st = ⟨st.wipeCache || decide (wipeCache ∈ cmds),
      st.retryUpdate || decide (retryUpdate ∈ cmds), st.logBuffer ++ cmds.filterMap logEntry,
      st.ui ++ cmds.flatMap uiCalls⟩ := by
  induction cmds generalizing st with
  | nil => simp
  | cons c cmds ih =>
    rw [List.foldl_cons, ih, apply_eq]
    cases c <;> simp [uiCalls, logEntry]

end StatusCommand

/-- The command `command`, with `rest` after it, read as the loop reads its arguments: the
tokens of `progress` and `set_progress` at spaces and newlines, the text of `ui_print` and `log`
up to the newline. `none` when a command misses an argument. -/
def parseCommand (command : Option (List Char)) (rest : List Char) : Option StatusCommand :=
  match command with
  | none => some .ignored
  | some name =>
    if name = "progress".toList then
      let fractionS := strtok rest " \n".toList
      fractionS.1.bind fun fraction => (strtok fractionS.2 " \n".toList).1.map (.progress fraction)
    else if name = "set_progress".toList then (strtok rest " \n".toList).1.map .setProgress
    else if name = "ui_print".toList then
      some (.uiPrint ((strtok rest "\n".toList).1.getD "\n".toList))
    else if name = "wipe_cache".toList then some .wipeCache
    else if name = "clear_display".toList then some .clearDisplay
    else if name = "enable_reboot".toList then some .enableReboot
    else if name = "retry_update".toList then some .retryUpdate
    else if name = "log".toList then (strtok rest "\n".toList).1.map .log
    else some .ignored

/-- A line of the status pipe read as a command: its first token names it. -/
def readCommand (line : List Char) : Option StatusCommand :=
  let command := strtok line " \n".toList
  parseCommand command.1 command.2

/-! ## The loop refines the protocol -/

/-- **One turn of the loop performs the command.** The loop body performs the command it reads,
and faults exactly when the command misses an argument. -/
theorem runCommand_refines (st : LoopState) (command : Option (List Char)) (rest : List Char) :
    (runCommand st command rest).toOption =
      (parseCommand command rest).map (StatusCommand.apply st) := by
  rcases command with _ | name
  · rfl
  simp only [runCommand, parseCommand, apply_ite Except.toOption,
    apply_ite (Option.map (StatusCommand.apply st))]
  -- the two sides test the command's name in the same order: match them test by test
  refine ite_congr rfl (fun _ => ?_) fun _ => ite_congr rfl (fun _ => ?_) fun _ =>
    ite_congr rfl (fun _ => ?_) fun _ => ite_congr rfl (fun _ => rfl) fun _ =>
    ite_congr rfl (fun _ => rfl) fun _ => ite_congr rfl (fun _ => rfl) fun _ =>
    ite_congr rfl (fun _ => rfl) fun _ => ite_congr rfl (fun _ => ?_) fun _ => rfl
  · cases (strtok rest " \n".toList).1 <;>
      cases (strtok (strtok rest " \n".toList).2 " \n".toList).1 <;> rfl
  · cases (strtok rest " \n".toList).1 <;> rfl
  · cases (strtok rest "\n".toList).1 <;> rfl
  · cases (strtok rest "\n".toList).1 <;> rfl

theorem dispatch_refines (st : LoopState) {line : List Char} (hnul : '\x00' ∉ line) :
    (dispatch st line).toOption = (readCommand line).map (StatusCommand.apply st) := by
  rw [dispatch, cStr_of_not_mem hnul]
  exact runCommand_refines st _ _

/-- **The loop over lines is a run of the protocol.** It ends in the state the lines' commands
give, and faults exactly when some line does not read as a command. -/
theorem foldlM_dispatch_refines {lines : List (List Char)} (hnul : ∀ l ∈ lines, '\x00' ∉ l)
    (st : LoopState) :
    (lines.foldlM dispatch st).toOption =
      (lines.mapM readCommand).map (·.foldl StatusCommand.apply st) := by
  induction lines generalizing st with
  | nil => rfl
  | cons l ls ih =>
    have hl := dispatch_refines st (hnul l (.head _))
    rw [List.foldlM_cons, List.mapM_cons]
    cases hd : dispatch st l with
    | error f =>
      rw [hd] at hl
      cases hr : readCommand l
      · rfl
      · rw [hr] at hl; cases hl
    | ok st₁ =>
      rw [hd] at hl
      cases hr : readCommand l with
      | none => rw [hr] at hl; cases hl
      | some c =>
        rw [hr] at hl
        cases hl
        have := ih (fun x hx => hnul x (.tail _ hx)) (StatusCommand.apply st c)
        cases hm : ls.mapM readCommand <;> rw [hm] at this <;> exact this

theorem except_map_toOption {ε α β : Type} (f : α → β) (x : Except ε α) :
    (x.map f).toOption = x.toOption.map f := by
  cases x <;> rfl

/-- **`try_update_binary` refines the protocol.** Once the command line is built and the child
forked, on an output `S` with no NUL byte and no line over 1023 bytes, `try_update_binary` faults
exactly when some line of `S` misses an argument, and otherwise returns, for the commands
`c₁ … cₙ` of the lines of `S`: `INSTALL_RETRY` when some `cᵢ` is `retry_update` and else the
child's exit status; `*wipe_cache` set exactly when some `cᵢ` is `wipe_cache`; the texts of the
`log` commands after the build numbers; and the UI calls of the commands, in order. -/
theorem tryUpdateBinary_protocol {updater : Updater} {env : CommandEnv} {proc : UpdateProcess}
    {path : List Char} {zip : ZipArchive} {wipeCache : Bool} {logBuffer : List (List Char)}
    {retryCount : Int} {args : List (List Char)}
    (hcmd : updateBinaryCommand updater env path zip retryCount proc.statusFd = .ok args)
    (hfork : proc.forkOk = true) (hnul : '\x00' ∉ proc.output)
    (hlen : ∀ l ∈ split proc.output ['\n'], l.length ≤ 1023) :
    (tryUpdateBinary updater env proc path zip wipeCache logBuffer retryCount).toOption =
      ((split proc.output ['\n']).mapM readCommand).map fun cmds =>
        ⟨terminalStatus (decide (.retryUpdate ∈ cmds)) proc.status, decide (.wipeCache ∈ cmds),
          readSourceTargetBuild zip logBuffer ++ cmds.filterMap StatusCommand.logEntry,
          cmds.flatMap StatusCommand.uiCalls⟩ := by
  rw [tryUpdateBinary_of_ok hcmd hfork, commandLoop_lines hnul hlen _ le_rfl, except_map_toOption,
    foldlM_dispatch_refines fun l hl hc => hnul (mem_of_mem_split hl hc), Option.map_map]
  congr 1
  funext cmds
  simp [StatusCommand.foldl_apply]

theorem tryUpdateBinary_protocol_happyPath :
    (tryUpdateBinary .legacy ⟨[], "3".toList, true, true⟩
        ⟨5, true, "progress 0.5 10\nui_print hi\nset_progress 1.0\n".toList, 0⟩
        "/sdcard/update.zip".toList
        [⟨"META-INF/com/google/android/update-binary".toList, 0, some "ELF".toList⟩] false [] 0
      ).toOption =
      ((split "progress 0.5 10\nui_print hi\nset_progress 1.0\n".toList ['\n']).mapM
          readCommand).map fun cmds =>
        ⟨terminalStatus (decide (.retryUpdate ∈ cmds)) 0, decide (.wipeCache ∈ cmds),
          readSourceTargetBuild [⟨"META-INF/com/google/android/update-binary".toList, 0,
            some "ELF".toList⟩] [] ++ cmds.filterMap StatusCommand.logEntry,
          cmds.flatMap StatusCommand.uiCalls⟩ :=
  @tryUpdateBinary_protocol .legacy ⟨[], "3".toList, true, true⟩
    ⟨5, true, "progress 0.5 10\nui_print hi\nset_progress 1.0\n".toList, 0⟩
    "/sdcard/update.zip".toList
    [⟨"META-INF/com/google/android/update-binary".toList, 0, some "ELF".toList⟩] false [] 0
    ["/tmp/update_binary".toList, "3".toList, "5".toList, "/sdcard/update.zip".toList]
    rfl rfl (by decide) (by decide)

end OtaRecovery
