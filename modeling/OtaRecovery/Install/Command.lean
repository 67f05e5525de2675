import OtaRecovery.Install.Gate

/-!
# The command line of the update binary

`update_binary_command` builds the argument vector `try_update_binary` executes. It has two
builds, chosen by `AB_OTA_UPDATER`:

* the A/B build gates the package with `check_newer_ab_build`, then passes the payload's offset
  in the package and the payload properties to `update_engine_sideload`
  (`updateBinaryCommand_ab_ok` lists what it needs);
* the legacy build copies the package's own update binary to `/tmp/update_binary` and runs it,
  with `retry` as a last argument on a retry (`updateBinaryCommand_legacy_ok`).
-/

namespace OtaRecovery

/-- The two builds of `install.cpp`: with `AB_OTA_UPDATER` defined, or without. -/
inductive Updater
  | ab
  | legacy
  deriving DecidableEq, Repr

/-- What `update_binary_command` meets outside the package: the device's properties (read by the
A/B gate), the value `EXPAND(RECOVERY_API_VERSION)` takes in the build (it is set in
`Android.mk`, outside the sources), and whether the legacy build can `creat`
`/tmp/update_binary` and write the binary into it. -/
structure CommandEnv where
  props : Props
  apiVersion : List Char
  creatOk : Bool
  writeOk : Bool

/-- `update_binary_command`: the argument vector, or the install result it fails with. -/
def updateBinaryCommand (updater : Updater) (env : CommandEnv) (path : List Char)
    (zip : ZipArchive) (retryCount : Int) (statusFd : Nat) :
    Except InstallResult (List (List Char)) :=
  match updater with
  | .ab =>
    match checkNewerAbBuild zip env.props with
    | .success =>
      match findEntry zip "payload_properties.txt".toList with
      | none => .error .corrupt
      | some propertiesEntry =>
        match propertiesEntry.contents with
        | none => .error .corrupt
        | some payloadProperties =>
          match findEntry zip "payload.bin".toList with
          | none => .error .corrupt
          | some payloadEntry =>
            .ok ["/sbin/update_engine_sideload".toList,
              "--payload=file://".toList ++ path,
              "--offset=".toList ++ decimal payloadEntry.offset,
              "--headers=".toList ++ payloadProperties,
              "--status_fd=".toList ++ decimal statusFd]
    | ret => .error ret
  | .legacy =>
    match findEntry zip "META-INF/com/google/android/update-binary".toList with
    | none => .error .corrupt
    | some binaryEntry =>
      if !env.creatOk then .error .error
      else if binaryEntry.contents.isNone || !env.writeOk then .error .error
      else
        .ok (["/tmp/update_binary".toList, env.apiVersion, decimal statusFd, path] ++
          if retryCount > 0 then ["retry".toList] else [])

/-- The A/B build runs the sideload engine exactly when the gate accepts the package and the
payload and its properties are in it. -/
theorem updateBinaryCommand_ab_ok {env : CommandEnv} {path : List Char} {zip : ZipArchive}
    {retryCount : Int} {statusFd : Nat} {args : List (List Char)}
    (h : updateBinaryCommand .ab env path zip retryCount statusFd = .ok args) :
    checkNewerAbBuild zip env.props = .success ∧
      ∃ properties payloadEntry,
        (findEntry zip "payload_properties.txt".toList).bind (·.contents) = some properties ∧
        findEntry zip "payload.bin".toList = some payloadEntry ∧
        args = ["/sbin/update_engine_sideload".toList, "--payload=file://".toList ++ path,
          "--offset=".toList ++ decimal payloadEntry.offset, "--headers=".toList ++ properties,
          "--status_fd=".toList ++ decimal statusFd] := by
  simp only [updateBinaryCommand] at h
  split at h <;> try cases h
  refine ⟨‹_›, ?_⟩
  split at h <;> try cases h
  split at h <;> try cases h
  split at h <;> cases h
  simp_all

/-- The A/B build fails with the gate's own result when the gate rejects the package, whatever
the status pipe. -/
theorem updateBinaryCommand_ab_of_rejected {env : CommandEnv} {zip : ZipArchive}
    {ret : InstallResult} (hgate : checkNewerAbBuild zip env.props = ret) (hret : ret ≠ .success)
    (path : List Char) (retryCount : Int) (statusFd : Nat) :
    updateBinaryCommand .ab env path zip retryCount statusFd = .error ret := by
  simp only [updateBinaryCommand, hgate]

/-- `update_binary_command` fails only with `INSTALL_ERROR` or `INSTALL_CORRUPT`: the A/B build
passes on the gate's result only when the gate rejects, and the gate never answers
`INSTALL_RETRY`. -/
theorem updateBinaryCommand_error_cases {updater : Updater} {env : CommandEnv} {path : List Char}
    {zip : ZipArchive} {retryCount : Int} {statusFd : Nat} {ret : InstallResult}
    (h : updateBinaryCommand updater env path zip retryCount statusFd = .error ret) :
    ret = .error ∨ ret = .corrupt := by
  cases updater
  · cases hg : checkNewerAbBuild zip env.props <;>
      simp only [updateBinaryCommand, hg, Except.error.injEq] at h
    · -- past the gate, every failure is `INSTALL_CORRUPT`
      split at h <;> try split at h <;> try split at h
      all_goals first | exact .inr (Except.error.inj h).symm | cases h
    · exact .inl h.symm
    · exact .inr h.symm
    · cases hm : readMetadataFromPackage zip with
      | none => simp [checkNewerAbBuild, hm] at hg
      | some m =>
        rcases checkNewerAbBuild_success_or_error hm env.props with h' | h' <;> rw [h'] at hg <;>
          cases hg
  · simp only [updateBinaryCommand] at h
    split at h <;> try split_ifs at h
    all_goals first | exact .inr (Except.error.inj h).symm | exact .inl (Except.error.inj h).symm

/-- The legacy build runs the package's binary with the API version, the status pipe and the
package, and asks for a retry exactly when `retry_count > 0`. -/
theorem updateBinaryCommand_legacy_ok {env : CommandEnv} {path : List Char} {zip : ZipArchive}
    {retryCount : Int} {statusFd : Nat} {args : List (List Char)}
    (h : updateBinaryCommand .legacy env path zip retryCount statusFd = .ok args) :
    args.take 4 = ["/tmp/update_binary".toList, env.apiVersion, decimal statusFd, path] ∧
      (args.drop 4 = ["retry".toList] ↔ 0 < retryCount) ∧
      (args.drop 4 = [] ↔ retryCount ≤ 0) := by
  simp only [updateBinaryCommand] at h
  split at h <;> try cases h
  split_ifs at h <;> cases h <;> simp_all [Int.not_lt]

end OtaRecovery
