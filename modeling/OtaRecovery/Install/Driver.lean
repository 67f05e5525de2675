import OtaRecovery.Install.Supervisor

/-!
# The install driver and its log

`really_install_package` maps, verifies and opens the package and hands it to
`try_update_binary`; `install_package` sets up the mounts around it, appends the uncrypt status
to the log buffer and writes the install log.

* `installLogContent` is the text `install_package` writes to `install_file`: a header of four
  lines (the package, `1` or `0` for the result, `time_total:` and `retry:`), a newline, and the
  log buffer joined at newlines.
* `installPackage_log_lines` reads the log back: split at newlines, it is the header followed by
  the lines of the log buffer.
* `installPackage_of_archive` says once what the driver adds around `try_update_binary`; from it,
  `installPackage_status_pipe` gives the driver's result from the child's lines, and
  `installPackage_gate_rejects` says that a package the A/B gate rejects never reaches a child.
* `installPackage_eq_ok` and `reallyInstallPackage_eq_ok` say how the driver returns, whatever the
  child writes. From them, `installPackage_success_iff` lists what an install needs to succeed
  (`InstallPasses`), `installPackage_child_flags` what the child's `retry_update` and
  `wipe_cache` decide, `installPackage_fault_iff` when the install faults, and
  `installPackage_log_readBack` reads the log back entry by entry: every entry of the log buffer
  is one line.
-/

namespace OtaRecovery

/-- What `install_package` meets outside the package: whether `setup_install_mounts`,
`sysMapFile` and `verify_package` succeed, the archive `OpenArchiveFromMemory` opens, what
`update_binary_command` and the update binary do, the contents of `UNCRYPT_STATUS` when it can be
mounted and read, and the whole seconds the install took. `zipVerificationFailure` and
`zipOpenFailure` are the values of `kZipVerificationFailure` and `kZipOpenFailure`, set in
`error_code.h` outside the sources. -/
structure InstallEnv where
  mountsOk : Bool
  mapOk : Bool
  verified : Bool
  archive : Option ZipArchive
  updater : Updater
  command : CommandEnv
  process : UpdateProcess
  uncryptStatus : Option (List Char)
  timeTotal : Int
  zipVerificationFailure : Int
  zipOpenFailure : Int

/-- `really_install_package`. The UI calls before and after `try_update_binary` are kept, but not
the two `verify_package` prints, whose second line reports a measured time; the mount of the
package's own path has no effect on the result and is left out. -/
def reallyInstallPackage (env : InstallEnv) (path : List Char) (wipeCache : Bool)
    (logBuffer : List (List Char)) (retryCount : Int) : Except Fault UpdateOutcome :=
  let ui : List UiCall := [.setBackgroundInstalling, .print "Finding update package...\n".toList,
    .setProgressDeterminate, .showVerificationProgress, .print "Opening update package...\n".toList]
  if !env.mapOk then .ok ⟨.corrupt, wipeCache, logBuffer, ui⟩
  else if !env.verified then
    .ok ⟨.corrupt, wipeCache, logBuffer ++ ["error: ".toList ++ decimal env.zipVerificationFailure],
      ui⟩
  else
    match env.archive with
    | none =>
      .ok ⟨.corrupt, wipeCache, logBuffer ++ ["error: ".toList ++ decimal env.zipOpenFailure], ui⟩
    | some zip =>
      let ui := ui ++ [.print "Installing update...\n".toList] ++
        (if retryCount > 0 then [.print ("Retry attempt: ".toList ++ decimal retryCount ++ ['\n'])]
          else []) ++ [.setEnableReboot false]
      (tryUpdateBinary env.updater env.command env.process path zip wipeCache logBuffer
          retryCount).map
        fun out => { out with ui := ui ++ out.ui ++ [.setEnableReboot true, .print ['\n']] }

/-- The text `install_package` writes to `install_file`: the header joined at newlines, a
newline, and the log buffer joined at newlines. -/
def installLogContent (path : List Char) (result : InstallResult) (timeTotal retryCount : Int)
    (logBuffer : List (List Char)) : List Char :=
  join [path, if result = .success then ['1'] else ['0'], "time_total: ".toList ++ decimal timeTotal,
      "retry: ".toList ++ decimal retryCount] ['\n'] ++ ['\n'] ++ join logBuffer ['\n']

/-- What `install_package` leaves: its result, `*wipe_cache`, the final log buffer and the text
written to `install_file`. -/
structure InstallOutcome where
  result : InstallResult
  wipeCache : Bool
  logBuffer : List (List Char)
  logContent : List Char

/-- The uncrypt status `install_package` appends to the log buffer: the trimmed contents of
`UNCRYPT_STATUS` when they start with `uncrypt_`. -/
def uncryptEntries (uncryptStatus : Option (List Char)) : List (List Char) :=
  match uncryptStatus with
  | some status => if startsWith status "uncrypt_".toList then [trim status] else []
  | none => []

/-- `install_package`. -/
def installPackage (env : InstallEnv) (path : List Char) (wipeCache : Bool) (retryCount : Int) :
    Except Fault InstallOutcome :=
  let run : Except Fault UpdateOutcome :=
    if !env.mountsOk then .ok ⟨.error, wipeCache, [], []⟩
    else reallyInstallPackage env path wipeCache [] retryCount
  run.map fun out =>
    let logBuffer := out.logBuffer ++ uncryptEntries env.uncryptStatus
    ⟨out.result, out.wipeCache, logBuffer,
      installLogContent path out.result env.timeTotal retryCount logBuffer⟩

/-- The header splits back into its four lines when the path has no newline. -/
theorem split_installLogContent {path : List Char} (hpath : '\n' ∉ path) (result : InstallResult)
    (timeTotal retryCount : Int) (logBuffer : List (List Char)) :
    split (installLogContent path result timeTotal retryCount logBuffer) ['\n'] =
      [path, if result = .success then ['1'] else ['0'], "time_total: ".toList ++ decimal timeTotal,
        "retry: ".toList ++ decimal retryCount] ++ split (join logBuffer ['\n']) ['\n'] := by
  have hd : '\n' ∈ ['\n'] := List.mem_singleton_self _
  have hdec : ∀ (pre : String) (n : Int), '\n' ∉ pre.toList → '\n' ∉ pre.toList ++ decimal n :=
    fun pre n hpre h => (List.mem_append.mp h).elim hpre (newline_not_mem_decimal n)
  rw [installLogContent, List.append_assoc, List.singleton_append, split_append_of_mem hd,
    split_join hd (List.cons_ne_nil _ _)]
  simp only [List.mem_cons, List.mem_singleton, List.not_mem_nil, or_false, forall_eq_or_imp,
    forall_eq]
  refine ⟨fun c hc hn => hpath (hn ▸ hc), ?_, fun c hc hn => ?_, fun c hc hn => ?_⟩
  · split_ifs <;> simp
  · exact hdec "time_total: " timeTotal (by decide) (hn ▸ hc)
  · exact hdec "retry: " retryCount (by decide) (hn ▸ hc)

/-- **The install log reads back.** Whenever `install_package` finishes, the text it writes,
split at newlines, is the header (the package, `1` exactly on success, `time_total:` and
`retry:`) followed by the lines of the log buffer joined at newlines. -/
theorem installPackage_log_lines {env : InstallEnv} {path : List Char} {wipeCache : Bool}
    {retryCount : Int} {out : InstallOutcome} (hpath : '\n' ∉ path)
    (h : installPackage env path wipeCache retryCount = .ok out) :
    split out.logContent ['\n'] =
      [path, if out.result = .success then ['1'] else ['0'],
        "time_total: ".toList ++ decimal env.timeTotal, "retry: ".toList ++ decimal retryCount] ++
      split (join out.logBuffer ['\n']) ['\n'] := by
  simp only [installPackage] at h
  generalize (if !env.mountsOk then _ else _ : Except Fault UpdateOutcome) = run at h
  cases run with
  | error f => cases h
  | ok o =>
    cases h
    exact split_installLogContent hpath _ _ _ _

/-- A child that reports a corrupt package, with `uncrypt_success` in the uncrypt file: the log
opens with the path, `0`, the time and the retry count, and goes on with the buffer's lines. -/
theorem installPackage_log_lines_corrupt :
    installPackage
        ⟨true, true, false, none, .legacy, ⟨[], "3".toList, true, true⟩, ⟨5, true, [], 0⟩,
          some "uncrypt_success\n".toList, 3, 21, 22⟩ "/sdcard/update.zip".toList false 0 =
        .ok ⟨.corrupt, false, ["error: 21".toList, "uncrypt_success".toList],
          "/sdcard/update.zip\n0\ntime_total: 3\nretry: 0\nerror: 21\nuncrypt_success".toList⟩ ∧
      split "/sdcard/update.zip\n0\ntime_total: 3\nretry: 0\nerror: 21\nuncrypt_success".toList
          ['\n'] =
        ["/sdcard/update.zip".toList, ['0'], "time_total: ".toList ++ decimal 3,
          "retry: ".toList ++ decimal 0] ++
        split (join ["error: 21".toList, "uncrypt_success".toList] ['\n']) ['\n'] :=
  ⟨rfl, @installPackage_log_lines
    ⟨true, true, false, none, .legacy, ⟨[], "3".toList, true, true⟩, ⟨5, true, [], 0⟩,
      some "uncrypt_success\n".toList, 3, 21, 22⟩
    "/sdcard/update.zip".toList false 0 _ (by decide) rfl⟩

/-! ## The driver around the child -/

/-- `install_package` once the mounts, the map, the signature and the archive succeed: the result
and `*wipe_cache` of `try_update_binary`, its log buffer followed by the uncrypt status, and the
install log written from them. -/
theorem installPackage_of_archive {env : InstallEnv} {zip : ZipArchive}
    (hmount : env.mountsOk = true) (hmap : env.mapOk = true) (hver : env.verified = true)
    (harch : env.archive = some zip) (path : List Char) (wipeCache : Bool) (retryCount : Int) :
    installPackage env path wipeCache retryCount =
      (tryUpdateBinary env.updater env.command env.process path zip wipeCache [] retryCount).map
        fun out => ⟨out.result, out.wipeCache, out.logBuffer ++ uncryptEntries env.uncryptStatus,
          installLogContent path out.result env.timeTotal retryCount
            (out.logBuffer ++ uncryptEntries env.uncryptStatus)⟩ := by
  simp only [installPackage, reallyInstallPackage, hmount, hmap, hver, harch, Bool.not_true,
    Bool.false_eq_true, if_false]
  cases tryUpdateBinary env.updater env.command env.process path zip wipeCache [] retryCount <;> rfl

/-- **The driver follows the status pipe.** When the mounts, the map, the signature and the
archive succeed, the command line is built and the child forked, and the child's output `S` has no
NUL byte, no line over 1023 bytes and every command carrying its arguments: `install_package`
returns `INSTALL_RETRY` exactly when some line of `S` is `retry_update`, otherwise
`INSTALL_SUCCESS` exactly on a normal exit with status 0 and `INSTALL_ERROR` otherwise;
`*wipe_cache` ends true exactly when some line is `wipe_cache`; and the log buffer is the build
numbers of the metadata, the text of the `log` lines of `S` in order, then the uncrypt status. -/
theorem installPackage_status_pipe {env : InstallEnv} {path : List Char} {wipeCache : Bool}
    {retryCount : Int} {zip : ZipArchive} {args : List (List Char)}
    (hmount : env.mountsOk = true) (hmap : env.mapOk = true) (hver : env.verified = true)
    (harch : env.archive = some zip)
    (hcmd : updateBinaryCommand env.updater env.command path zip retryCount
      env.process.statusFd = .ok args)
    (hfork : env.process.forkOk = true)
    (hargs : ∀ l ∈ split env.process.output ['\n'], carriesArguments l)
    (hnul : '\x00' ∉ env.process.output)
    (hlen : ∀ l ∈ split env.process.output ['\n'], l.length ≤ 1023) :
    ∃ out, installPackage env path wipeCache retryCount = .ok out ∧
      (out.result = .retry ↔
        ∃ l ∈ split env.process.output ['\n'], firstToken l = some "retry_update".toList) ∧
      ((¬ ∃ l ∈ split env.process.output ['\n'], firstToken l = some "retry_update".toList) →
        (out.result = .success ↔
          wIfExited env.process.status ∧ wExitStatus env.process.status = 0) ∧
        (out.result = .error ↔
          ¬ (wIfExited env.process.status ∧ wExitStatus env.process.status = 0))) ∧
      (out.wipeCache = true ↔
        ∃ l ∈ split env.process.output ['\n'], firstToken l = some "wipe_cache".toList) ∧
      out.logBuffer = readSourceTargetBuild zip [] ++
        (split env.process.output ['\n']).filterMap logText ++ uncryptEntries env.uncryptStatus := by
  obtain ⟨ui, hrun⟩ := tryUpdateBinary_run hcmd hfork hargs hnul hlen wipeCache []
  have ht := terminalStatus_lines (split env.process.output ['\n']) env.process.status
  rw [installPackage_of_archive hmount hmap hver harch, hrun]
  exact ⟨_, rfl, ht.1, ht.2, by simp, rfl⟩

theorem installPackage_status_pipe_retry :
    ∃ out, installPackage
        ⟨true, true, true, some [⟨"META-INF/com/google/android/update-binary".toList, 0,
            some "ELF".toList⟩], .legacy, ⟨[], "3".toList, true, true⟩,
          ⟨5, true, "log done\nretry_update\n".toList, 256⟩, none, 40, 21, 22⟩
        "/sdcard/update.zip".toList false 1 = .ok out ∧
      out.result = .retry ∧ out.logBuffer = ["done".toList] := by
  obtain ⟨out, h, hr, -, -, hl⟩ := @installPackage_status_pipe
    ⟨true, true, true, some [⟨"META-INF/com/google/android/update-binary".toList, 0,
        some "ELF".toList⟩], .legacy, ⟨[], "3".toList, true, true⟩,
      ⟨5, true, "log done\nretry_update\n".toList, 256⟩, none, 40, 21, 22⟩
    "/sdcard/update.zip".toList false 1
    [⟨"META-INF/com/google/android/update-binary".toList, 0, some "ELF".toList⟩]
    ["/tmp/update_binary".toList, "3".toList, "5".toList, "/sdcard/update.zip".toList,
      "retry".toList]
    rfl rfl rfl rfl rfl rfl (by decide) (by decide) (by decide)
  exact ⟨out, h, hr.mpr (by decide), by rw [hl]; rfl⟩

/-- **A rejected package never reaches the child.** In the A/B build, when the mounts, the map,
the signature and the archive succeed but the metadata fails the gate, `install_package` returns
`INSTALL_ERROR`, leaves `*wipe_cache` as it was and logs only the build numbers and the uncrypt
status; and it does so whatever the update process would have done, since none is started. -/
theorem installPackage_gate_rejects {env : InstallEnv} {path : List Char} {wipeCache : Bool}
    {retryCount : Int} {zip : ZipArchive} {m : List Char}
    (hab : env.updater = .ab) (hmount : env.mountsOk = true) (hmap : env.mapOk = true)
    (hver : env.verified = true) (harch : env.archive = some zip)
    (hmeta : readMetadataFromPackage zip = some m) (hrej : ¬ GateAccepts m env.command.props) :
    ∃ out, installPackage env path wipeCache retryCount = .ok out ∧ out.result = .error ∧
      out.wipeCache = wipeCache ∧
      out.logBuffer = readSourceTargetBuild zip [] ++ uncryptEntries env.uncryptStatus ∧
      ∀ process, installPackage { env with process := process } path wipeCache retryCount =
        .ok out := by
  have hgate : checkNewerAbBuild zip env.command.props = .error :=
    (checkNewerAbBuild_success_or_error hmeta _).resolve_left
      fun h => hrej ((checkNewerAbBuild_eq_success_iff hmeta _).mp h)
  have hrun : ∀ process : UpdateProcess,
      installPackage { env with process := process } path wipeCache retryCount =
        .ok ⟨.error, wipeCache, readSourceTargetBuild zip [] ++ uncryptEntries env.uncryptStatus,
          installLogContent path .error env.timeTotal retryCount
            (readSourceTargetBuild zip [] ++ uncryptEntries env.uncryptStatus)⟩ := fun process => by
    rw [@installPackage_of_archive { env with process := process } zip hmount hmap hver harch, hab,
      tryUpdateBinary_of_error (updateBinaryCommand_ab_of_rejected hgate (by decide) path retryCount
        process.statusFd)]
    rfl
  exact ⟨_, hrun env.process, rfl, rfl, rfl, hrun⟩

theorem installPackage_gate_rejects_device :
    ∃ out, installPackage
        ⟨true, true, true, some [⟨metadataPath, 0, some "pre-device=B\nota-type=AB".toList⟩], .ab,
          ⟨[("ro.product.device".toList, "A".toList)], "3".toList, true, true⟩,
          ⟨5, true, "retry_update\n".toList, 0⟩, none, 4, 21, 22⟩
        "/sdcard/update.zip".toList false 0 = .ok out ∧ out.result = .error ∧
      out.wipeCache = false :=
  have h := @installPackage_gate_rejects
    ⟨true, true, true, some [⟨metadataPath, 0, some "pre-device=B\nota-type=AB".toList⟩], .ab,
      ⟨[("ro.product.device".toList, "A".toList)], "3".toList, true, true⟩,
      ⟨5, true, "retry_update\n".toList, 0⟩, none, 4, 21, 22⟩
    "/sdcard/update.zip".toList false 0
    [⟨metadataPath, 0, some "pre-device=B\nota-type=AB".toList⟩] "pre-device=B\nota-type=AB".toList
    rfl rfl rfl rfl rfl rfl (fun h => absurd h.device.1 (by decide))
  let ⟨out, hout, hr, hw, _⟩ := h
  ⟨out, hout, hr, hw⟩

/-! ## Whole installs -/

/-- How `really_install_package` returns: the map, the signature or the archive fails and the
package is `INSTALL_CORRUPT`, with at most one more entry, one line long, in the log buffer; or
`try_update_binary` runs on the opened archive, and its result, `*wipe_cache` and log buffer are
returned. -/
theorem reallyInstallPackage_eq_ok {env : InstallEnv} {path : List Char} {wipeCache : Bool}
    {logBuffer : List (List Char)} {retryCount : Int} {o : UpdateOutcome}
    (h : reallyInstallPackage env path wipeCache logBuffer retryCount = .ok o) :
    (o.result = .corrupt ∧ o.wipeCache = wipeCache ∧
        (∃ extra, o.logBuffer = logBuffer ++ extra ∧ ∀ e ∈ extra, '\n' ∉ e) ∧
        ¬ (env.mapOk = true ∧ env.verified = true ∧ env.archive.isSome)) ∨
      ∃ zip o', env.mapOk = true ∧ env.verified = true ∧ env.archive = some zip ∧
        tryUpdateBinary env.updater env.command env.process path zip wipeCache logBuffer
          retryCount = .ok o' ∧
        o.result = o'.result ∧ o.wipeCache = o'.wipeCache ∧ o.logBuffer = o'.logBuffer := by
  have herror : ∀ code : Int, ∀ e ∈ ["error: ".toList ++ decimal code], '\n' ∉ e := fun code e he =>
    List.mem_singleton.mp he ▸ newline_not_mem_append_decimal (by decide) code
  cases hmap : env.mapOk
  · simp only [reallyInstallPackage, hmap, Bool.not_false, if_true, Except.ok.injEq] at h
    subst h
    exact .inl ⟨rfl, rfl, ⟨[], by simp, by simp⟩, by simp⟩
  cases hver : env.verified
  · simp only [reallyInstallPackage, hmap, hver, Bool.not_false, Bool.not_true, Bool.false_eq_true,
      if_true, if_false, Except.ok.injEq] at h
    subst h
    exact .inl ⟨rfl, rfl, ⟨_, rfl, herror _⟩, by simp⟩
  cases harch : env.archive with
  | none =>
    simp only [reallyInstallPackage, hmap, hver, harch, Bool.not_true, Bool.false_eq_true, if_false,
      Except.ok.injEq] at h
    subst h
    exact .inl ⟨rfl, rfl, ⟨_, rfl, herror _⟩, by simp⟩
  | some zip =>
    simp only [reallyInstallPackage, hmap, hver, harch, Bool.not_true, Bool.false_eq_true,
      if_false] at h
    cases ht : tryUpdateBinary env.updater env.command env.process path zip wipeCache logBuffer
        retryCount with
    | error f => rw [ht] at h; cases h
    | ok o' =>
      rw [ht] at h
      cases h
      exact .inr ⟨zip, o', rfl, rfl, rfl, ht, rfl, rfl, rfl⟩

/-- How `install_package` returns: from the outcome `o` of its run (`INSTALL_ERROR` with an empty
log buffer when the mounts fail, `really_install_package` otherwise), with the uncrypt status
appended to the log buffer and the log written from them. -/
theorem installPackage_eq_ok {env : InstallEnv} {path : List Char} {wipeCache : Bool}
    {retryCount : Int} {out : InstallOutcome}
    (h : installPackage env path wipeCache retryCount = .ok out) :
    ∃ o : UpdateOutcome,
      (env.mountsOk = false ∧ o.result = .error ∧ o.wipeCache = wipeCache ∧ o.logBuffer = [] ∨
        env.mountsOk = true ∧ reallyInstallPackage env path wipeCache [] retryCount = .ok o) ∧
      out = ⟨o.result, o.wipeCache, o.logBuffer ++ uncryptEntries env.uncryptStatus,
        installLogContent path o.result env.timeTotal retryCount
          (o.logBuffer ++ uncryptEntries env.uncryptStatus)⟩ := by
  unfold installPackage at h
  cases hm : env.mountsOk
  · simp only [hm, Bool.not_false, if_true] at h
    exact ⟨_, .inl ⟨rfl, rfl, rfl, rfl⟩, (Except.ok.inj h).symm⟩
  · simp only [hm, Bool.not_true, Bool.false_eq_true, if_false] at h
    cases hr : reallyInstallPackage env path wipeCache [] retryCount with
    | error f => rw [hr] at h; cases h
    | ok o => rw [hr] at h; exact ⟨o, .inr ⟨rfl, rfl⟩, (Except.ok.inj h).symm⟩

/-- `install_package` starts the update binary: the mounts, the map and the signature succeed,
the archive opens, and `try_update_binary` starts the child on it. -/
structure InstallLaunches (env : InstallEnv) (path : List Char) (retryCount : Int) : Prop where
  mounted : env.mountsOk = true
  mapped : env.mapOk = true
  verified : env.verified = true
  starts : ∃ zip, env.archive = some zip ∧
    ChildStarts env.updater env.command env.process path zip retryCount

/-- What an install needs to end in `INSTALL_SUCCESS`: the child starts, never sends
`retry_update`, and exits normally with status 0. -/
structure InstallPasses (env : InstallEnv) (path : List Char) (retryCount : Int)
    extends InstallLaunches env path retryCount : Prop where
  noRetry : ¬ Sends env.process.output "retry_update".toList
  exited : wIfExited env.process.status = true
  exitStatus : wExitStatus env.process.status = 0

theorem not_installLaunches {env : InstallEnv}
    (h : ¬ (env.mountsOk = true ∧ env.mapOk = true ∧ env.verified = true ∧ env.archive.isSome))
    (path : List Char) (retryCount : Int) : ¬ InstallLaunches env path retryCount := fun hl => by
  obtain ⟨zip, harch, -⟩ := hl.starts
  exact h ⟨hl.mounted, hl.mapped, hl.verified, by simp [harch]⟩

theorem installLaunches_iff {env : InstallEnv} {zip : ZipArchive} (hmount : env.mountsOk = true)
    (hmap : env.mapOk = true) (hver : env.verified = true) (harch : env.archive = some zip)
    (path : List Char) (retryCount : Int) :
    InstallLaunches env path retryCount ↔
      ChildStarts env.updater env.command env.process path zip retryCount := by
  refine ⟨fun hl => ?_, fun hs => ⟨hmount, hmap, hver, zip, harch, hs⟩⟩
  obtain ⟨zip', harch', hs⟩ := hl.starts
  cases harch.symm.trans harch'
  exact hs

/-- How `install_package` returns, by the stage it reaches: when a stage before the child fails,
the result is `INSTALL_ERROR` or `INSTALL_CORRUPT` and `*wipe_cache` is untouched; otherwise
`install_package` returns the result and `*wipe_cache` of `try_update_binary` on the opened
archive. -/
theorem installPackage_cases {env : InstallEnv} {path : List Char} {wipeCache : Bool}
    {retryCount : Int} {out : InstallOutcome}
    (h : installPackage env path wipeCache retryCount = .ok out) :
    (¬ (env.mountsOk = true ∧ env.mapOk = true ∧ env.verified = true ∧ env.archive.isSome) ∧
        (out.result = .error ∨ out.result = .corrupt) ∧ out.wipeCache = wipeCache) ∨
      ∃ zip o, env.mountsOk = true ∧ env.mapOk = true ∧ env.verified = true ∧
        env.archive = some zip ∧
        tryUpdateBinary env.updater env.command env.process path zip wipeCache [] retryCount =
          .ok o ∧
        out.result = o.result ∧ out.wipeCache = o.wipeCache := by
  obtain ⟨o, hrun, rfl⟩ := installPackage_eq_ok h
  rcases hrun with ⟨hm, hr, hw, -⟩ | ⟨hm, hrun⟩
  · exact .inl ⟨fun hc => by simp [hm] at hc, .inl hr, hw⟩
  rcases reallyInstallPackage_eq_ok hrun with
    ⟨hr, hw, -, hnot⟩ | ⟨zip, o', hmap, hver, harch, ht, hr, hw, -⟩
  · exact .inl ⟨fun hc => hnot hc.2, .inr hr, hw⟩
  · exact .inr ⟨zip, o', hm, hmap, hver, harch, ht, hr, hw⟩

/-- **When an install succeeds.** Whatever the environment and whatever the child writes (NUL
bytes and long lines included), `install_package` returns `INSTALL_SUCCESS` exactly when every
check of `InstallPasses` holds. In the A/B build the command line is only built when the gate
accepts the package (`updateBinaryCommand_ab_ok`). -/
theorem installPackage_success_iff {env : InstallEnv} {path : List Char} {wipeCache : Bool}
    {retryCount : Int} {out : InstallOutcome}
    (h : installPackage env path wipeCache retryCount = .ok out) :
    out.result = .success ↔ InstallPasses env path retryCount := by
  rcases installPackage_cases h with
    ⟨hpre, hr, -⟩ | ⟨zip, o, hm, hmap, hver, harch, ht, hr, -⟩
  · refine iff_of_false ?_ fun hp => not_installLaunches hpre path retryCount hp.toInstallLaunches
    rcases hr with hr | hr <;> simp [hr]
  rw [hr, tryUpdateBinary_eq_success_iff ht]
  constructor
  · rintro ⟨hs, hno, he, hx⟩
    exact ⟨⟨hm, hmap, hver, zip, harch, hs⟩, hno, he, hx⟩
  · rintro ⟨hl, hno, he, hx⟩
    exact ⟨(installLaunches_iff hm hmap hver harch path retryCount).mp hl, hno, he, hx⟩

theorem installPackage_success_iff_exit :
    ∃ out, installPackage
        ⟨true, true, true, some [⟨"META-INF/com/google/android/update-binary".toList, 0,
            some "ELF".toList⟩], .legacy, ⟨[], "3".toList, true, true⟩,
          ⟨5, true, "log done\n".toList, 0⟩, none, 40, 21, 22⟩
        "/sdcard/update.zip".toList false 0 = .ok out ∧ out.result = .success := by
  have h := @installPackage_success_iff
    ⟨true, true, true, some [⟨"META-INF/com/google/android/update-binary".toList, 0,
        some "ELF".toList⟩], .legacy, ⟨[], "3".toList, true, true⟩,
      ⟨5, true, "log done\n".toList, 0⟩, none, 40, 21, 22⟩
    "/sdcard/update.zip".toList false 0 _ rfl
  exact ⟨_, rfl, h.mpr ⟨⟨rfl, rfl, rfl, _, rfl, ⟨_, rfl⟩, rfl⟩,
    fun hs => absurd ((any_readBuffers_eq_true_iff _ _).mpr hs) (by decide), rfl, rfl⟩⟩

/-- **What the child decides**, whatever it writes. Once `install_package` starts the update
binary, it returns `INSTALL_RETRY` exactly when the child sends `retry_update`, and `*wipe_cache`
ends true exactly when the child sends `wipe_cache`, whatever the caller passed in. When the
binary is not started, the result is never `INSTALL_RETRY` and `*wipe_cache` is left as the caller
passed it. -/
theorem installPackage_child_flags {env : InstallEnv} {path : List Char} {wipeCache : Bool}
    {retryCount : Int} {out : InstallOutcome}
    (h : installPackage env path wipeCache retryCount = .ok out) :
    (out.result = .retry ↔
        InstallLaunches env path retryCount ∧ Sends env.process.output "retry_update".toList) ∧
      (InstallLaunches env path retryCount →
        (out.wipeCache = true ↔ Sends env.process.output "wipe_cache".toList)) ∧
      (¬ InstallLaunches env path retryCount → out.wipeCache = wipeCache) := by
  rcases installPackage_cases h with
    ⟨hpre, hr, hw⟩ | ⟨zip, o, hm, hmap, hver, harch, ht, hr, hw⟩
  · have hnot := not_installLaunches hpre path retryCount
    refine ⟨iff_of_false ?_ fun hs => hnot hs.1, fun hs => absurd hs hnot, fun _ => hw⟩
    rcases hr with hr | hr <;> simp [hr]
  · rw [hr, hw, installLaunches_iff hm hmap hver harch path retryCount]
    exact tryUpdateBinary_flags ht

theorem installPackage_child_flags_wipe :
    ∃ out, installPackage
        ⟨true, true, true, some [⟨"META-INF/com/google/android/update-binary".toList, 0,
            some "ELF".toList⟩], .legacy, ⟨[], "3".toList, true, true⟩,
          ⟨5, true, "wipe_cache\n".toList, 0⟩, none, 40, 21, 22⟩
        "/sdcard/update.zip".toList false 0 = .ok out ∧ out.wipeCache = true := by
  obtain ⟨-, hwipe, -⟩ := @installPackage_child_flags
    ⟨true, true, true, some [⟨"META-INF/com/google/android/update-binary".toList, 0,
        some "ELF".toList⟩], .legacy, ⟨[], "3".toList, true, true⟩,
      ⟨5, true, "wipe_cache\n".toList, 0⟩, none, 40, 21, 22⟩
    "/sdcard/update.zip".toList false 0 _ rfl
  exact ⟨_, rfl, (hwipe ⟨rfl, rfl, rfl, _, rfl, ⟨_, rfl⟩, rfl⟩).mpr
    ((any_readBuffers_eq_true_iff _ _).mp (by decide))⟩

/-- `install_package` faults only inside `try_update_binary`, once every stage before it
passed. -/
theorem installPackage_eq_error {env : InstallEnv} {path : List Char} {wipeCache : Bool}
    {retryCount : Int} {f : Fault} (h : installPackage env path wipeCache retryCount = .error f) :
    ∃ zip, env.mountsOk = true ∧ env.mapOk = true ∧ env.verified = true ∧
      env.archive = some zip ∧
      tryUpdateBinary env.updater env.command env.process path zip wipeCache [] retryCount =
        .error f := by
  cases hm : env.mountsOk
  · simp [installPackage, hm, Except.map] at h
  cases hmap : env.mapOk
  · simp [installPackage, reallyInstallPackage, hm, hmap, Except.map] at h
  cases hver : env.verified
  · simp [installPackage, reallyInstallPackage, hm, hmap, hver, Except.map] at h
  cases harch : env.archive with
  | none => simp [installPackage, reallyInstallPackage, hm, hmap, hver, harch, Except.map] at h
  | some zip =>
    rw [installPackage_of_archive hm hmap hver harch] at h
    refine ⟨zip, rfl, rfl, rfl, rfl, ?_⟩
    cases ht : tryUpdateBinary env.updater env.command env.process path zip wipeCache [] retryCount
    · rw [ht] at h
      exact congrArg Except.error (Except.error.inj h)
    · rw [ht] at h
      cases h

/-- **When an install faults.** Whatever the environment and whatever the child writes,
`install_package` hands a `NULL` token to `strtof`, `strtol` or the `std::string` constructor
exactly when it starts the update binary and some buffer the command loop reads has a
`progress`, `set_progress` or `log` command that misses an argument. -/
theorem installPackage_fault_iff (env : InstallEnv) (path : List Char) (wipeCache : Bool)
    (retryCount : Int) :
    (∃ f, installPackage env path wipeCache retryCount = .error f) ↔
      InstallLaunches env path retryCount ∧
        ∃ b ∈ readBuffers 1024 env.process.output.length env.process.output,
          carriesArguments (cStr b) = false := by
  constructor
  · rintro ⟨f, h⟩
    obtain ⟨zip, hm, hmap, hver, harch, ht⟩ := installPackage_eq_error h
    obtain ⟨hs, hb⟩ := (tryUpdateBinary_error_iff _ _ _ _ _ _ _ _).mp ⟨f, ht⟩
    exact ⟨⟨hm, hmap, hver, zip, harch, hs⟩, hb⟩
  · rintro ⟨hl, hb⟩
    obtain ⟨zip, harch, hs⟩ := hl.starts
    obtain ⟨f, ht⟩ := (tryUpdateBinary_error_iff env.updater env.command env.process path zip
      wipeCache [] retryCount).mpr ⟨hs, hb⟩
    exact ⟨f, by rw [installPackage_of_archive hl.mounted hl.mapped hl.verified harch, ht]; rfl⟩

/-- The uncrypt status is one line when the trimmed contents of `UNCRYPT_STATUS` are. -/
theorem newline_not_mem_uncryptEntries {uncryptStatus : Option (List Char)}
    (h : ∀ s, uncryptStatus = some s → '\n' ∉ trim s) :
    ∀ e ∈ uncryptEntries uncryptStatus, '\n' ∉ e := by
  intro e he
  unfold uncryptEntries at he
  split at he
  · split_ifs at he
    · exact List.mem_singleton.mp he ▸ h _ rfl
    · cases he
  · cases he

/-- Every entry of the log buffer `install_package` writes is one line, when the uncrypt status
is: the build numbers, the `error:` lines of `really_install_package` and the texts of the
child's `log` commands all are. -/
theorem installPackage_logBuffer_lines {env : InstallEnv} {path : List Char} {wipeCache : Bool}
    {retryCount : Int} {out : InstallOutcome}
    (hunc : ∀ s, env.uncryptStatus = some s → '\n' ∉ trim s)
    (h : installPackage env path wipeCache retryCount = .ok out) :
    ∀ e ∈ out.logBuffer, '\n' ∉ e := by
  obtain ⟨o, hrun, rfl⟩ := installPackage_eq_ok h
  have ho : ∀ e ∈ o.logBuffer, '\n' ∉ e := by
    rcases hrun with ⟨-, -, -, hl⟩ | ⟨-, hrun⟩
    · simp [hl]
    rcases reallyInstallPackage_eq_ok hrun with
      ⟨-, -, ⟨extra, hl, he⟩, -⟩ | ⟨zip, o', -, -, -, ht, -, -, hl⟩
    · simpa [hl] using he
    · rw [hl]
      exact tryUpdateBinary_logBuffer_lines ht (by simp)
  simp only [List.mem_append]
  rintro e (he | he)
  exacts [ho e he, newline_not_mem_uncryptEntries hunc e he]

/-- **The install log reads back entry by entry.** When the package's path and the uncrypt
status are one line each, the text `install_package` writes, split at newlines, is the header
followed by the entries of the log buffer themselves, one per line (and one empty line when the
buffer is empty), whatever the child wrote. -/
theorem installPackage_log_readBack {env : InstallEnv} {path : List Char} {wipeCache : Bool}
    {retryCount : Int} {out : InstallOutcome} (hpath : '\n' ∉ path)
    (hunc : ∀ s, env.uncryptStatus = some s → '\n' ∉ trim s)
    (h : installPackage env path wipeCache retryCount = .ok out) :
    split out.logContent ['\n'] =
      [path, if out.result = .success then ['1'] else ['0'],
        "time_total: ".toList ++ decimal env.timeTotal, "retry: ".toList ++ decimal retryCount] ++
      if out.logBuffer = [] then [[]] else out.logBuffer := by
  have hlines := installPackage_logBuffer_lines hunc h
  obtain ⟨o, -, rfl⟩ := installPackage_eq_ok h
  dsimp only at hlines ⊢
  rw [split_installLogContent hpath]
  by_cases hnil : o.logBuffer ++ uncryptEntries env.uncryptStatus = []
  · rw [if_pos hnil, hnil]
    rfl
  · rw [if_neg hnil, split_join (List.mem_singleton_self _) hnil
      fun l hl c hc hcd => hlines l hl (by rwa [List.mem_singleton.mp hcd] at hc)]

theorem installPackage_log_readBack_uncrypt :
    ∃ out, installPackage
        ⟨true, true, true, some [⟨"META-INF/com/google/android/update-binary".toList, 0,
            some "ELF".toList⟩], .legacy, ⟨[], "3".toList, true, true⟩,
          ⟨5, true, "log one\nlog two\n".toList, 0⟩, some "uncrypt_success\n".toList, 40, 21, 22⟩
        "/sdcard/update.zip".toList false 0 = .ok out ∧
      split out.logContent ['\n'] = ["/sdcard/update.zip".toList, ['1'], "time_total: 40".toList,
        "retry: 0".toList, "one".toList, "two".toList, "uncrypt_success".toList] := by
  have h := @installPackage_log_readBack
    ⟨true, true, true, some [⟨"META-INF/com/google/android/update-binary".toList, 0,
        some "ELF".toList⟩], .legacy, ⟨[], "3".toList, true, true⟩,
      ⟨5, true, "log one\nlog two\n".toList, 0⟩, some "uncrypt_success\n".toList, 40, 21, 22⟩
    "/sdcard/update.zip".toList false 0 _ (by decide) (fun s hs => by cases hs; decide) rfl
  exact ⟨_, rfl, h.trans rfl⟩

end OtaRecovery
