import OdroidU2.Ota.IncrementalCorrect

/-!
# The Names an Incremental Package Evaluates

`WriteIncrementalOTAPackage` compares `source_recovery` with `target_recovery`, but the
lines that would bind these names are commented out.  Python notices when the comparison
runs, so the function gets past it on no input: it ends with a `NameError` unless one of
the errors it raises itself comes first.

- `writeIncremental_ends_iff` — when the function ends in one of the two ways it should
- `small_package_unbound` — two complete builds for which it does not
-/

namespace OdroidU2.Ota

open OdroidU2.Foundations

/-! ## §1 The Comparison of the Recovery Images -/

/-- The names that are bound to a boot image when the comparison runs. -/
def imageScope (target source : Build) : String → Option Bytes
  | "source_boot" => some source.boot
  | "target_boot" => some target.boot
  | _ => none

/-- `name.data`: a name without a binding is an error. -/
def imageData (scope : String → Option Bytes) (name : String) : Except PyError Bytes :=
  match scope name with
  | none => .error .nameError
  | some data => .ok data

/-- `updating_boot = (source_boot.data != target_boot.data)` and its twin for the recovery
image. -/
def imagesDiffer (scope : String → Option Bytes) (source target : String) :
    Except PyError Bool := do
  return (← imageData scope source) ≠ (← imageData scope target)

/-- `updating_recovery = (source_recovery.data != target_recovery.data)` -/
def updatingRecoveryValue (target source : Build) : Except PyError Bool :=
  imagesDiffer (imageScope target source) "source_recovery" "target_recovery"

/-- The comparison of the recovery images has neither. -/
theorem updatingRecoveryValue_eq (target source : Build) :
    updatingRecoveryValue target source = .error .nameError := rfl

/-- `WriteIncrementalOTAPackage` as it stands, with every name it evaluates. -/
def writeIncremental (tools : Tools) (order : DictOrder) (opts : Options) (target source : Build) :
    Except PyError Output :=
  writeIncrementalOTAPackage tools order opts target source (updatingRecoveryValue target source)

/-- The function raises `common.ExternalError`, or runs to its end. -/
def EndsAsItShould : Except PyError Output → Prop
  | .ok _ => True
  | .error (.externalError _) => True
  | .error _ => False

/-! ## §2 Steps That Stop -/

/-- A computation raises `common.ExternalError` when `P` holds, and has a value when not. -/
structure StopsWhen {α : Type} (P : Prop) (x : Except PyError α) : Prop where
  raises : P → ∃ message, x = .error (.externalError message)
  goes_on : ¬P → ∃ a, x = .ok a

/-- A step that stops ends the function as it should; one that goes on leaves it to the rest. -/
theorem StopsWhen.ends_iff {α : Type} {P Q : Prop} {x : Except PyError α}
    {f : α → Except PyError Output} (h : StopsWhen P x)
    (hf : ∀ a, EndsAsItShould (f a) ↔ Q) : EndsAsItShould (x >>= f) ↔ P ∨ Q := by
  by_cases hP : P
  · obtain ⟨message, rfl⟩ := h.raises hP
    exact iff_of_true trivial (.inl hP)
  · obtain ⟨a, rfl⟩ := h.goes_on hP
    rw [or_iff_right hP]
    exact hf a

theorem stopsWhen_getBuildProp (prop : String) (buildProp : String → Option String) :
    StopsWhen (buildProp prop = none) (getBuildProp prop buildProp) := by
  rw [getBuildProp]
  cases buildProp prop with
  | none => exact ⟨fun _ => ⟨_, rfl⟩, fun hno => absurd rfl hno⟩
  | some value => exact ⟨nofun, fun _ => ⟨value, rfl⟩⟩

section Classify

variable (tools : Tools) (opts : Options)

/-- A file stops the classification when it must not be sent whole and would be. -/
theorem stopsWhen_classifyFile (sourceData : Dict FileName Bytes) (acc : Classified)
    (fn : FileName) (tf : Bytes) :
    StopsWhen (fn ∈ opts.prohibitVerbatim ∧ (fn ∉ sourceData.keys ∨ fn ∈ opts.requireVerbatim))
      (classifyFile tools opts sourceData acc fn tf) := by
  -- the two branches that would send the file whole raise in the same way
  have hwhole (x : Except PyError Classified) (c : Classified)
      (hx : x = if fn ∈ opts.prohibitVerbatim then
        .error (.externalError ("\"" ++ fn.text ++ "\" must be sent verbatim")) else .ok c) :
      StopsWhen (fn ∈ opts.prohibitVerbatim) x := by
    rw [hx]
    exact ⟨fun hprohibit => ⟨_, if_pos hprohibit⟩, fun hprohibit => ⟨c, if_neg hprohibit⟩⟩
  rw [classifyFile]
  cases hsource : sourceData.get? fn with
  | none =>
    have hkeys : fn ∉ sourceData.keys := (Dict.get?_eq_none_iff _ _).mp hsource
    rw [and_iff_left (.inl hkeys)]
    exact hwhole _ _ rfl
  | some sf =>
    have hkeys : fn ∈ sourceData.keys := (Dict.mem_keys_iff _ _).mpr ⟨sf, hsource⟩
    by_cases hrequire : fn ∈ opts.requireVerbatim
    · rw [and_iff_left (.inr hrequire)]
      simp only [if_pos hrequire]
      exact hwhole _ _ rfl
    · -- a patch will do
      refine ⟨fun h => (h.2.elim (fun hno => hno hkeys) hrequire).elim, fun _ => ?_⟩
      simp only [if_neg hrequire]
      split
      · exact ⟨_, rfl⟩
      · exact ⟨_, rfl⟩

/-- The loop over files of the target build stops when one of them does. -/
theorem stopsWhen_classify_loop (targetData sourceData : Dict FileName Bytes)
    (l : List FileName) (hl : ∀ fn ∈ l, fn ∈ targetData.keys) (acc : Classified) :
    StopsWhen (∃ fn ∈ l, fn ∈ opts.prohibitVerbatim ∧
        (fn ∉ sourceData.keys ∨ fn ∈ opts.requireVerbatim))
      (l.foldlM (fun acc fn =>
        match targetData.get? fn with
        | none => Except.error PyError.keyError
        | some tf => classifyFile tools opts sourceData acc fn tf) acc) := by
  -- file by file: the first one that must not be sent raises, and before it the loop goes on
  induction l generalizing acc with
  | nil => exact ⟨nofun, fun _ => ⟨acc, rfl⟩⟩
  | cons fn l ih =>
    obtain ⟨tf, htf⟩ := (Dict.mem_keys_iff _ _).mp (hl fn List.mem_cons_self)
    have hfile := stopsWhen_classifyFile tools opts sourceData acc fn tf
    simp only [List.foldlM_cons, htf, List.exists_mem_cons_iff]
    by_cases hstop : fn ∈ opts.prohibitVerbatim ∧
        (fn ∉ sourceData.keys ∨ fn ∈ opts.requireVerbatim)
    · obtain ⟨message, hmessage⟩ := hfile.raises hstop
      rw [hmessage]
      exact ⟨fun _ => ⟨message, rfl⟩, fun hno => absurd (.inl hstop) hno⟩
    · obtain ⟨c, hc⟩ := hfile.goes_on hstop
      rw [hc, or_iff_right hstop]
      exact ih (fun fn' hfn' => hl fn' (List.mem_cons_of_mem _ hfn')) c

/-- A file of the target build would be sent whole and must not be. -/
def MustNotBeSent (target source : Build) (fn : FileName) : Prop :=
  fn ∈ (loadSystemFiles target.system).keys ∧ fn ∈ opts.prohibitVerbatim ∧
    (fn ∉ (loadSystemFiles source.system).keys ∨ fn ∈ opts.requireVerbatim)

/-- The classification stops when there is such a file. -/
theorem stopsWhen_makePlan (target source : Build) :
    StopsWhen (∃ fn, MustNotBeSent opts target source fn)
      (makePlan tools opts target.system source.system) := by
  -- the loop is over all the files of the target build
  have hmem (fn : FileName) : fn ∈ sortedKeys (loadSystemFiles target.system) ↔
      fn ∈ (loadSystemFiles target.system).keys := by
    rw [mem_sortedKeys, Dict.mem_keys_iff]
  have hloop : StopsWhen (∃ fn ∈ sortedKeys (loadSystemFiles target.system), _)
      (classify tools opts (loadSystemFiles target.system) (loadSystemFiles source.system)) :=
    stopsWhen_classify_loop tools opts (loadSystemFiles target.system)
      (loadSystemFiles source.system) _ (fun fn hfn => (hmem fn).mp hfn) ⟨[], []⟩
  constructor
  · rintro ⟨fn, hfn, hstop⟩
    obtain ⟨message, hmessage⟩ := hloop.raises ⟨fn, (hmem fn).mpr hfn, hstop⟩
    rw [makePlan, hmessage]
    exact ⟨message, rfl⟩
  · intro hno
    obtain ⟨c, hc⟩ := hloop.goes_on fun ⟨fn, hfn, hstop⟩ => hno ⟨fn, (hmem fn).mp hfn, hstop⟩
    rw [makePlan, hc]
    exact ⟨_, rfl⟩

end Classify

/-! ## §3 How the Function Ends -/

/-- One of the errors that the function raises itself comes before the comparison of the
recovery images: a build property is missing, or a file must not be sent whole. -/
def StopsBefore (opts : Options) (target source : Build) : Prop :=
  source.buildProp "ro.product.device" = none ∨ target.buildProp "ro.build.date.utc" = none ∨
    (∃ fn, MustNotBeSent opts target source fn) ∨
    source.buildProp "ro.build.fingerprint" = none ∨
    target.buildProp "ro.build.fingerprint" = none

/-- **When the names do not matter**: for every pair of builds, all options and every
differ, the function raises `common.ExternalError` or runs to its end exactly when it stops
before it compares the recovery images. -/
theorem writeIncremental_ends_iff (tools : Tools) (order : DictOrder) (opts : Options)
    (target source : Build) :
    EndsAsItShould (writeIncremental tools order opts target source) ↔
      StopsBefore opts target source := by
  rw [writeIncremental, writeIncrementalOTAPackage, updatingRecoveryValue_eq, StopsBefore]
  apply (stopsWhen_getBuildProp _ _).ends_iff
  intro preDevice
  apply (stopsWhen_getBuildProp _ _).ends_iff
  intro postTimestamp
  apply (stopsWhen_makePlan tools opts target source).ends_iff
  intro plan
  apply (stopsWhen_getBuildProp _ _).ends_iff
  intro sourceFp
  rw [← or_false (target.buildProp _ = none)]
  apply (stopsWhen_getBuildProp _ _).ends_iff
  intro targetFp
  -- nothing has stopped it, and now it asks for `source_recovery`
  exact iff_of_false id id

/-- Two builds with all their properties and no file to object to: the function ends with a
`NameError`. -/
theorem small_package_unbound :
    writeIncremental plainRecovery.toTools DictOrder.insertion smallOptions smallTarget
      smallSource = .error .nameError ∧
    ¬EndsAsItShould (writeIncremental plainRecovery.toTools DictOrder.insertion smallOptions
      smallTarget smallSource) := by
  have hname : writeIncremental plainRecovery.toTools DictOrder.insertion smallOptions smallTarget
      smallSource = .error .nameError := rfl
  refine ⟨hname, ?_⟩
  rw [hname]
  exact id

end OdroidU2.Ota
