import OtaRecovery.Install.Package

/-!
# The A/B build gate

`check_newer_ab_build` decides whether an A/B package may be installed on this device. It reads
the fields of the metadata map and the device's properties and rejects the package at the first
field that does not match. A package older than the running build passes only when it is
flagged as a downgrade and pins its source build.

`checkNewerAbBuild_spec` states the gate as one condition, `GateHolds`, over the map's values:
the package is accepted exactly when the condition holds, `INSTALL_CORRUPT` means the metadata
could not be read, and every other rejection is `INSTALL_ERROR`.
-/

namespace OtaRecovery

/-- The downgrade test of `check_newer_ab_build`: the package's `post-timestamp` is empty, is not
an `int64_t`, or is older than the build's timestamp. -/
def isDowngrade (postTimestamp : List Char) (buildTimestamp : Int) : Bool :=
  postTimestamp.isEmpty ||
    match parseInt (cStr postTimestamp) int64Min int64Max with
    | some pkgPostTimestamp => decide (pkgPostTimestamp < buildTimestamp)
    | none => true

/-- `check_newer_ab_build`. -/
def checkNewerAbBuild (zip : ZipArchive) (props : Props) : InstallResult :=
  match readMetadataFromPackage zip with
  | none => .corrupt
  | some metadataStr =>
    let metadata := parseMetadata metadataStr
    let pkgDevice := mapGet metadata "pre-device".toList
    let pkgSerialNo := mapGet metadata "serialno".toList
    let pkgPreBuild := mapGet metadata "pre-build-incremental".toList
    let pkgPreBuildFingerprint := mapGet metadata "pre-build".toList
    if pkgDevice ≠ propertyGet props "ro.product.device".toList [] ∨ pkgDevice = [] then .error
    else if pkgSerialNo ≠ [] ∧ pkgSerialNo ≠ propertyGet props "ro.serialno".toList [] then
      .error
    else if mapGet metadata "ota-type".toList ≠ "AB".toList then .error
    else if pkgPreBuild ≠ [] ∧
        pkgPreBuild ≠ propertyGet props "ro.build.version.incremental".toList [] then .error
    else if pkgPreBuildFingerprint ≠ [] ∧
        pkgPreBuildFingerprint ≠ propertyGet props "ro.build.fingerprint".toList [] then .error
    else if isDowngrade (mapGet metadata "post-timestamp".toList)
        (propertyGetInt64 props "ro.build.date.utc".toList int64Max) then
      if mapGet metadata "ota-downgrade".toList ≠ "yes".toList then .error
      else if pkgPreBuildFingerprint = [] then .error
      else .success
    else .success

/-- The gate's condition, over the values `V` of the metadata map and the device's product `D`,
serial number `S`, incremental build `I`, fingerprint `F` and build timestamp `T`. -/
@[mk_iff]
structure GateHolds (V : List Char → List Char) (D S I F : List Char) (T : Int) : Prop where
  device : V "pre-device".toList = D ∧ V "pre-device".toList ≠ []
  serialno : V "serialno".toList = [] ∨ V "serialno".toList = S
  otaType : V "ota-type".toList = "AB".toList
  incremental : V "pre-build-incremental".toList = [] ∨ V "pre-build-incremental".toList = I
  fingerprint : V "pre-build".toList = [] ∨ V "pre-build".toList = F
  newer : (∃ t, parseInt (cStr (V "post-timestamp".toList)) int64Min int64Max = some t ∧ T ≤ t) ∨
    V "ota-downgrade".toList = "yes".toList ∧ V "pre-build".toList ≠ []

/-- The gate's condition on the metadata text `m` and the properties `props`. -/
def GateAccepts (m : List Char) (props : Props) : Prop :=
  GateHolds (mapGet (parseMetadata m)) (propertyGet props "ro.product.device".toList [])
    (propertyGet props "ro.serialno".toList [])
    (propertyGet props "ro.build.version.incremental".toList [])
    (propertyGet props "ro.build.fingerprint".toList [])
    (propertyGetInt64 props "ro.build.date.utc".toList int64Max)

theorem isDowngrade_eq_false_iff (postTimestamp : List Char) (buildTimestamp : Int) :
    isDowngrade postTimestamp buildTimestamp = false ↔
      ∃ t, parseInt (cStr postTimestamp) int64Min int64Max = some t ∧ buildTimestamp ≤ t := by
  cases postTimestamp with
  | nil => simp [isDowngrade]
  | cons c s =>
    simp only [isDowngrade, List.isEmpty_cons, Bool.false_or]
    split <;> simp_all [Int.not_lt]

/-- On readable metadata the gate's only rejection is `INSTALL_ERROR`. -/
theorem checkNewerAbBuild_success_or_error {zip : ZipArchive} {m : List Char}
    (h : readMetadataFromPackage zip = some m) (props : Props) :
    checkNewerAbBuild zip props = .success ∨ checkNewerAbBuild zip props = .error := by
  cases hr : checkNewerAbBuild zip props <;> simp only [true_or, or_true, reduceCtorEq]
  all_goals simp only [checkNewerAbBuild, h, ite_eq_iff, reduceCtorEq, and_false, false_or] at hr

/-- On readable metadata the gate accepts exactly when `GateAccepts` holds. The fields are
first abstracted, so that what is left is the propositional shape of the chain of tests. -/
theorem checkNewerAbBuild_eq_success_iff {zip : ZipArchive} {m : List Char}
    (h : readMetadataFromPackage zip = some m) (props : Props) :
    checkNewerAbBuild zip props = .success ↔ GateAccepts m props := by
  have hd := isDowngrade_eq_false_iff
    (mapGet (parseMetadata m) "post-timestamp".toList)
    (propertyGetInt64 props "ro.build.date.utc".toList int64Max)
  simp only [checkNewerAbBuild, h, GateAccepts, gateHolds_iff]
  generalize isDowngrade _ _ = down at hd ⊢
  generalize (∃ t, parseInt (cStr (mapGet (parseMetadata m) "post-timestamp".toList))
    int64Min int64Max = some t ∧ propertyGetInt64 props "ro.build.date.utc".toList int64Max ≤ t)
    = newer at hd ⊢
  generalize mapGet (parseMetadata m) "pre-device".toList = dev
  generalize mapGet (parseMetadata m) "serialno".toList = serial
  generalize mapGet (parseMetadata m) "ota-type".toList = otaType
  generalize mapGet (parseMetadata m) "pre-build-incremental".toList = preInc
  generalize mapGet (parseMetadata m) "pre-build".toList = preBuild
  generalize mapGet (parseMetadata m) "ota-downgrade".toList = downgrade
  generalize propertyGet props "ro.product.device".toList [] = D
  generalize propertyGet props "ro.serialno".toList [] = S
  generalize propertyGet props "ro.build.version.incremental".toList [] = I
  generalize propertyGet props "ro.build.fingerprint".toList [] = F
  generalize "AB".toList = ab
  generalize "yes".toList = yes
  cases down <;> simp only [Bool.false_eq_true, Bool.true_eq_false, true_iff, false_iff] at hd <;>
  simp only [ite_eq_iff, reduceCtorEq, false_and, and_false, false_or, or_false, true_and,
    and_true, not_or, not_and_or, not_not, ne_eq, not_false_eq_true, not_true_eq_false, true_or,
    Bool.false_eq_true, Bool.true_eq_false, hd]

/-- **The A/B gate**: `check_newer_ab_build` accepts exactly the packages whose metadata meets
`GateHolds`; it returns `INSTALL_CORRUPT` exactly when the metadata cannot be read, and
`INSTALL_ERROR` on every other package. -/
theorem checkNewerAbBuild_spec (zip : ZipArchive) (props : Props) :
    (checkNewerAbBuild zip props = .success ↔
      ∃ m, readMetadataFromPackage zip = some m ∧ GateAccepts m props) ∧
    (checkNewerAbBuild zip props = .corrupt ↔ readMetadataFromPackage zip = none) ∧
    (checkNewerAbBuild zip props = .error ↔
      ∃ m, readMetadataFromPackage zip = some m ∧ ¬ GateAccepts m props) := by
  cases h : readMetadataFromPackage zip with
  | none => simp [checkNewerAbBuild, h]
  | some m =>
    have hs := checkNewerAbBuild_eq_success_iff h props
    rcases checkNewerAbBuild_success_or_error h props with he | he <;> simp_all

end OtaRecovery
