import OtaRecovery.Base.Properties

/-!
# The update package and its metadata

The package is a zip archive whose entries the installer reads by name. Its metadata entry is a
text of `key=value` lines, and the installer reads it twice.

* `check_newer_ab_build` parses it into a `std::map` (`parseMetadata`): a line with a `=` maps
  the text before its first `=` to the text after it, and a later line overrides an earlier one
  (`lookup_parseMetadata`). The value is kept as written, blanks and carriage returns included
  (`parseMetadata_keeps_blanks`).
* `read_source_target_build` scans the trimmed lines for the prefixes `pre-build-incremental`
  and `post-build-incremental` and logs every number it parses. It appends one entry per
  matching line (`readSourceTargetBuild_two_entries`); when the key is written once and exactly,
  its entry is the map's value read as a number (`readSourceTargetBuild_agrees`).
-/

namespace OtaRecovery

/-- Modelled from the spec: the result of an install; `install.h`, which declares it, is not
among the sources. -/
inductive InstallResult
  | success
  | error
  | corrupt
  | retry
  deriving DecidableEq, Repr

/-- An entry of the package's zip archive: its name, the offset of its data in the package
file, and its contents (`none` when extracting it fails). -/
structure ZipEntry where
  name : List Char
  offset : Nat
  contents : Option (List Char)
  deriving DecidableEq, Repr

/-- An opened zip archive: its entries. -/
abbrev ZipArchive := List ZipEntry

/-- `FindEntry(zip, name, &entry) == 0`: the entry called `name`. -/
def findEntry (zip : ZipArchive) (name : List Char) : Option ZipEntry :=
  zip.find? (·.name == name)

/-- `METADATA_PATH`. -/
def metadataPath : List Char := "META-INF/com/android/metadata".toList

/-- `read_metadata_from_package`: the contents of the metadata entry, `none` when the entry is
missing or cannot be extracted. -/
def readMetadataFromPackage (zip : ZipArchive) : Option (List Char) :=
  (findEntry zip metadataPath).bind (·.contents)

/-! ## The metadata map -/

/-- A `std::map<std::string, std::string>`: each key once, with its value. -/
abbrev StringMap := List (List Char × List Char)

/-- `map[key] = value`. -/
def mapAssign (m : StringMap) (key value : List Char) : StringMap :=
  (key, value) :: m.filter (·.1 != key)

/-- `map[key]` read: the value, and the empty string for a missing key. -/
def mapGet (m : StringMap) (key : List Char) : List Char :=
  (m.lookup key).getD []

/-- One turn of the loop of `check_newer_ab_build` that reads the metadata into its map. -/
def metadataStep (metadata : StringMap) (line : List Char) : StringMap :=
  match find '=' line with
  | some eq => mapAssign metadata (line.take eq) (line.drop (eq + 1))
  | none => metadata

/-- The map `check_newer_ab_build` reads its fields from. -/
def parseMetadata (metadataStr : List Char) : StringMap :=
  (split metadataStr ['\n']).foldl metadataStep []

/-- The key of a metadata line: the text before its first `=`. -/
def metadataKey (line : List Char) : Option (List Char) :=
  (find '=' line).map line.take

/-- The value of a metadata line: the text after its first `=`. -/
def metadataValue (line : List Char) : Option (List Char) :=
  (find '=' line).map fun eq => line.drop (eq + 1)

theorem lookup_cons_of_ne {m : StringMap} {a b k : List Char} (h : k ≠ a) :
    ((a, b) :: m).lookup k = m.lookup k := by
  have : (k == a) = false := by simpa using h
  simp [List.lookup_cons, this]

theorem lookup_filter_ne (m : StringMap) (key k : List Char) :
    (m.filter (·.1 != key)).lookup k = if k = key then none else m.lookup k := by
  induction m with
  | nil => simp
  | cons e m ih =>
    obtain ⟨a, b⟩ := e
    by_cases ha : a = key
    · subst ha
      simp only [List.filter_cons, bne_self_eq_false, Bool.false_eq_true, if_false, ih]
      split_ifs with hk
      · rfl
      · rw [lookup_cons_of_ne hk]
    · have hb : (a != key) = true := by simpa using ha
      simp only [List.filter_cons, hb, if_true, ih]
      by_cases hk : k = a
      · subst hk
        simp [ha]
      · rw [lookup_cons_of_ne hk, lookup_cons_of_ne hk, ih]

theorem lookup_mapAssign (m : StringMap) (key value k : List Char) :
    (mapAssign m key value).lookup k = if k = key then some value else m.lookup k := by
  by_cases hk : k = key
  · simp [mapAssign, hk]
  · rw [mapAssign, lookup_cons_of_ne hk, lookup_filter_ne, if_neg hk, if_neg hk]

theorem lookup_metadataStep (metadata : StringMap) (line k : List Char) :
    (metadataStep metadata line).lookup k =
      if metadataKey line = some k then metadataValue line else metadata.lookup k := by
  unfold metadataStep metadataKey metadataValue
  cases find '=' line with
  | none => simp
  | some eq => simp [lookup_mapAssign, eq_comm]

/-- **The map keeps the last value of each key**: it holds for `k` the value of the last line
whose key is `k`, and nothing when no line has key `k`. -/
theorem lookup_parseMetadata (metadataStr k : List Char) :
    (parseMetadata metadataStr).lookup k =
      ((split metadataStr ['\n']).filter (metadataKey · = some k)).getLast?.bind
        metadataValue := by
  unfold parseMetadata
  induction split metadataStr ['\n'] using List.reverseRecOn with
  | nil => simp
  | append_singleton lines line ih =>
    rw [List.foldl_append, List.foldl_cons, List.foldl_nil, lookup_metadataStep, ih]
    by_cases h : metadataKey line = some k <;> simp [h, List.getLast?_append]

/-- **The fields the gate reads**: `map[k]` is the value of the last line whose key is `k`, as it
stands after the first `=`, and the empty string when no line has key `k`. -/
theorem mapGet_parseMetadata (metadataStr k : List Char) :
    mapGet (parseMetadata metadataStr) k =
      (((split metadataStr ['\n']).filter (metadataKey · = some k)).getLast?.bind
        metadataValue).getD [] := by
  rw [mapGet, lookup_parseMetadata]

/-- The map keeps blanks: a line ended by a carriage return keeps it in its value. -/
theorem parseMetadata_keeps_blanks :
    (parseMetadata "ota-type=AB\r".toList).lookup "ota-type".toList = some "AB\r".toList ∧
      trim "AB\r".toList = "AB".toList := by
  decide

/-! ## The build numbers logged -/

/-- `parse_build_number`: the number after the first `=` of a trimmed metadata line, read by
`ParseInt` into an `int` no less than `0`; `-1` when there is no `=` or no such number. -/
def parseBuildNumber (str : List Char) : Int :=
  match find '=' str with
  | some pos =>
    match parseInt (cStr (trim (str.drop (pos + 1)))) 0 intMax with
    | some buildNumber => buildNumber
    | none => -1
  | none => -1

/-- **`parse_build_number` reads back a printed number.** On a line `key=n`, with `n` printed by
`%d` and no `=` in the key, it returns `n` when `0 ≤ n ≤ INT_MAX`, and `-1` otherwise. -/
theorem parseBuildNumber_decimal {key : List Char} (hkey : '=' ∉ key) (n : Int) :
    parseBuildNumber (key ++ '=' :: decimal n) = if 0 ≤ n ∧ n ≤ intMax then n else -1 := by
  rw [parseBuildNumber, find_append_cons hkey]
  simp only [List.drop_append, List.drop_succ_cons, List.drop_zero, trim_decimal, cStr_decimal,
    parseInt_decimal n (by decide : int64Min ≤ 0) (by decide : intMax ≤ int64Max)]
  split_ifs <;> rfl

theorem parseBuildNumber_decimal_incremental :
    parseBuildNumber ("pre-build-incremental".toList ++ '=' :: decimal 2943039) = 2943039 :=
  (parseBuildNumber_decimal (by decide) 2943039).trans (if_pos (by decide))

/-- The entries one trimmed metadata line adds to the log buffer in
`read_source_target_build`. -/
def buildNumberEntries (str : List Char) : List (List Char) :=
  if startsWith str "pre-build-incremental".toList then
    if parseBuildNumber str ≠ -1 then ["source_build: ".toList ++ decimal (parseBuildNumber str)]
    else []
  else if startsWith str "post-build-incremental".toList then
    if parseBuildNumber str ≠ -1 then ["target_build: ".toList ++ decimal (parseBuildNumber str)]
    else []
  else []

/-- `read_source_target_build`: the log buffer with the build numbers of the metadata
appended. -/
def readSourceTargetBuild (zip : ZipArchive) (logBuffer : List (List Char)) :
    List (List Char) :=
  match readMetadataFromPackage zip with
  | none => logBuffer
  | some metaData =>
    (split metaData ['\n']).foldl
      (fun logBuffer line => logBuffer ++ buildNumberEntries (trim line)) logBuffer

theorem readSourceTargetBuild_eq {zip : ZipArchive} {metaData : List Char}
    (h : readMetadataFromPackage zip = some metaData) (logBuffer : List (List Char)) :
    readSourceTargetBuild zip logBuffer =
      logBuffer ++ (split metaData ['\n']).flatMap (buildNumberEntries ∘ trim) := by
  simp only [readSourceTargetBuild, h]
  induction split metaData ['\n'] generalizing logBuffer with
  | nil => simp
  | cons line lines ih => simp [ih]

/-- Every entry `read_source_target_build` logs is one line. -/
theorem newline_not_mem_readSourceTargetBuild {zip : ZipArchive} {logBuffer : List (List Char)}
    (h : ∀ e ∈ logBuffer, '\n' ∉ e) : ∀ e ∈ readSourceTargetBuild zip logBuffer, '\n' ∉ e := by
  have hentry : ∀ str, ∀ e ∈ buildNumberEntries str, '\n' ∉ e := fun str e he => by
    unfold buildNumberEntries at he
    split_ifs at he <;> simp only [List.mem_singleton, List.not_mem_nil] at he <;> subst he <;>
      exact newline_not_mem_append_decimal (by decide) _
  cases hm : readMetadataFromPackage zip with
  | none => simpa [readSourceTargetBuild, hm] using h
  | some m =>
    rw [readSourceTargetBuild_eq hm]
    simp only [List.mem_append, List.mem_flatMap, Function.comp]
    rintro e (he | ⟨l, -, he⟩)
    exacts [h e he, hentry _ e he]

/-- Two lines with the key give two entries. -/
theorem readSourceTargetBuild_two_entries :
    readSourceTargetBuild
        [⟨metadataPath, 0, some "pre-build-incremental=1\npre-build-incremental=2".toList⟩] [] =
      ["source_build: 1".toList, "source_build: 2".toList] := by
  decide

/-! ## Agreement with the map -/

/-- The entries starting with `label` that a trimmed line adds: its number, when the line
starts with `key`. -/
def keyEntries (key label str : List Char) : List (List Char) :=
  if startsWith str key ∧ parseBuildNumber str ≠ -1 then [label ++ decimal (parseBuildNumber str)]
  else []

theorem startsWith_post_of_pre {str : List Char}
    (h : startsWith str "pre-build-incremental".toList) :
    startsWith str "post-build-incremental".toList = false := by
  simp only [startsWith, List.isPrefixOf_iff_prefix] at h
  obtain ⟨u, rfl⟩ := h
  rfl

theorem filter_source_buildNumberEntries (str : List Char) :
    (buildNumberEntries str).filter (startsWith · "source_build: ".toList) =
      keyEntries "pre-build-incremental".toList "source_build: ".toList str := by
  unfold buildNumberEntries keyEntries
  split_ifs <;> simp_all [startsWith]

theorem filter_target_buildNumberEntries (str : List Char) :
    (buildNumberEntries str).filter (startsWith · "target_build: ".toList) =
      keyEntries "post-build-incremental".toList "target_build: ".toList str := by
  unfold buildNumberEntries keyEntries
  by_cases hpre : startsWith str "pre-build-incremental".toList
  · have hpost := startsWith_post_of_pre hpre
    split_ifs <;> simp_all [startsWith]
  · split_ifs <;> simp_all [startsWith]

/-- The metadata lines write `key` once and exactly: at most one line starts with `key` once
trimmed, and such a line has `key` itself before its first `=`. -/
structure KeyWrittenOnce (key : List Char) (lines : List (List Char)) : Prop where
  atMostOne : (lines.filter fun l => startsWith (trim l) key).length ≤ 1
  exact : ∀ l ∈ lines, startsWith (trim l) key → metadataKey l = some key

/-- A line with key `key` is `key`, then `=`, then its value. -/
theorem eq_of_metadataKey {line key : List Char} (h : metadataKey line = some key) :
    ∃ v, metadataValue line = some v ∧ line = key ++ '=' :: v ∧ '=' ∉ key := by
  unfold metadataKey metadataValue at *
  cases hf : find '=' line with
  | none => simp [hf] at h
  | some eq =>
    simp only [hf, Option.map_some', Option.some.injEq] at h ⊢
    obtain ⟨h1, h2⟩ := find_eq_some hf
    exact ⟨_, rfl, h ▸ h1, h ▸ h2⟩

section Agreement

variable {a : Char} {k : List Char} (ha : ¬ isspace a)
include ha

theorem startsWith_trim_of_metadataKey {line : List Char} (h : metadataKey line = some (a :: k)) :
    startsWith (trim line) (a :: k) := by
  obtain ⟨v, -, rfl, -⟩ := eq_of_metadataKey h
  rw [trim_cons_append_cons ha (by decide)]
  exact startsWith_append_self _ _

/-- The entry a line with key `key` gives is its value, trimmed and read as a number. -/
theorem keyEntries_trim_of_metadataKey (label : List Char) {line v : List Char}
    (h : metadataKey line = some (a :: k)) (hv : metadataValue line = some v) :
    keyEntries (a :: k) label (trim line) =
      ((parseInt (cStr (trim v)) 0 intMax).map (label ++ decimal ·)).toList := by
  have hs := startsWith_trim_of_metadataKey ha h
  obtain ⟨v', hv', rfl, heq⟩ := eq_of_metadataKey h
  obtain rfl : v' = v := Option.some.inj (hv'.symm.trans hv)
  have hnum : parseBuildNumber (trim (a :: k ++ '=' :: v')) =
      (parseInt (cStr (trim v')) 0 intMax).getD (-1) := by
    rw [trim_cons_append_cons ha (by decide), parseBuildNumber, find_append_cons heq]
    simp only [List.drop_append, List.drop_succ_cons, List.drop_zero, trim_rdropWhile]
    cases parseInt (cStr (trim v')) 0 intMax <;> rfl
  rw [keyEntries, hnum]
  cases hp : parseInt (cStr (trim v')) 0 intMax with
  | none => simp
  | some n =>
    have : (0 : Int) ≤ n := (parseInt_mem hp).1
    rw [if_pos ⟨hs, by simp; omega⟩]
    rfl

/-- **The entries agree with the map** when the key is written once and exactly: the entry is
the value of the line with the key, trimmed and read as a number, or there is none. -/
theorem flatMap_keyEntries_of_writtenOnce (label : List Char) {lines : List (List Char)}
    (h : KeyWrittenOnce (a :: k) lines) :
    lines.flatMap (keyEntries (a :: k) label ∘ trim) =
      ((parseInt (cStr (trim
        (((lines.filter (metadataKey · = some (a :: k))).getLast?.bind metadataValue).getD [])))
        0 intMax).map (label ++ decimal ·)).toList := by
  have hkey : lines.filter (metadataKey · = some (a :: k)) =
      lines.filter (fun l => startsWith (trim l) (a :: k)) :=
    List.filter_congr fun l hl => by
      by_cases hk : metadataKey l = some (a :: k)
      · simp [hk, startsWith_trim_of_metadataKey ha hk]
      · have hs : ¬ startsWith (trim l) (a :: k) = true := fun hs => hk (h.exact l hl hs)
        simp [hk, hs]
  have hflat : ∀ ls : List (List Char), ls.flatMap (keyEntries (a :: k) label ∘ trim) =
      (ls.filter (fun l => startsWith (trim l) (a :: k))).flatMap (keyEntries (a :: k) label ∘ trim) := by
    intro ls
    induction ls with
    | nil => rfl
    | cons l ls ih =>
      by_cases hs : startsWith (trim l) (a :: k) <;> simp [List.filter_cons, hs, ih, keyEntries]
  rw [hflat, hkey]
  match hF : lines.filter (fun l => startsWith (trim l) (a :: k)), h.atMostOne with
  | [], _ => simp
  | [l], _ =>
    obtain ⟨hl, hs⟩ := List.mem_filter.1 (hF ▸ List.mem_singleton_self l)
    have hk := h.exact l hl hs
    obtain ⟨v, hv, -⟩ := eq_of_metadataKey hk
    simp [keyEntries_trim_of_metadataKey ha label hk hv, hv]
  | _ :: _ :: _, hlen => simp [hF] at hlen

end Agreement

/-- **`read_source_target_build` agrees with the map, key by key.** When `pre-build-incremental`
is written once and exactly, its `source_build` entries are the map's value for that key,
trimmed and read by `ParseInt` (at least `0`), or none when it does not parse; likewise, when
`post-build-incremental` is, its `target_build` entries, each half under its own key's
hypothesis. -/
theorem readSourceTargetBuild_agrees {zip : ZipArchive} {m : List Char}
    (hm : readMetadataFromPackage zip = some m) :
    (KeyWrittenOnce "pre-build-incremental".toList (split m ['\n']) →
      (readSourceTargetBuild zip []).filter (startsWith · "source_build: ".toList) =
        ((parseInt (cStr (trim (mapGet (parseMetadata m) "pre-build-incremental".toList))) 0
          intMax).map ("source_build: ".toList ++ decimal ·)).toList) ∧
    (KeyWrittenOnce "post-build-incremental".toList (split m ['\n']) →
      (readSourceTargetBuild zip []).filter (startsWith · "target_build: ".toList) =
        ((parseInt (cStr (trim (mapGet (parseMetadata m) "post-build-incremental".toList))) 0
          intMax).map ("target_build: ".toList ++ decimal ·)).toList) := by
  simp only [readSourceTargetBuild_eq hm, List.nil_append, List.filter_flatMap, mapGet,
    lookup_parseMetadata, Function.comp_def, filter_source_buildNumberEntries,
    filter_target_buildNumberEntries]
  exact ⟨flatMap_keyEntries_of_writtenOnce (by decide) _,
    flatMap_keyEntries_of_writtenOnce (by decide) _⟩

/-- The `source_build` half on a metadata text that writes `post-build-incremental` twice. -/
theorem readSourceTargetBuild_agrees_source :
    readMetadataFromPackage [⟨metadataPath, 0, some
        "pre-build-incremental=5\npost-build-incremental=7\npost-build-incremental=8".toList⟩] =
      some "pre-build-incremental=5\npost-build-incremental=7\npost-build-incremental=8".toList ∧
    KeyWrittenOnce "pre-build-incremental".toList
      (split "pre-build-incremental=5\npost-build-incremental=7\npost-build-incremental=8".toList
        ['\n']) ∧
    ¬ KeyWrittenOnce "post-build-incremental".toList
      (split "pre-build-incremental=5\npost-build-incremental=7\npost-build-incremental=8".toList
        ['\n']) ∧
    (readSourceTargetBuild [⟨metadataPath, 0, some
        "pre-build-incremental=5\npost-build-incremental=7\npost-build-incremental=8".toList⟩]
        []).filter (startsWith · "source_build: ".toList) =
      ((parseInt (cStr (trim (mapGet (parseMetadata
        "pre-build-incremental=5\npost-build-incremental=7\npost-build-incremental=8".toList)
          "pre-build-incremental".toList))) 0 intMax).map
        ("source_build: ".toList ++ decimal ·)).toList := by
  refine ⟨rfl, ⟨by decide, by decide⟩, fun h => absurd h.atMostOne (by decide), ?_⟩
  exact (@readSourceTargetBuild_agrees [⟨metadataPath, 0, some
    "pre-build-incremental=5\npost-build-incremental=7\npost-build-incremental=8".toList⟩] _ rfl).1
    ⟨by decide, by decide⟩

end OtaRecovery
