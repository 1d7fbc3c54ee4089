import OdroidU2.Ota.IncrementalNames
import OdroidU2.Ota.IncrementalParts

/-!
# Files That Must Not Be Sent Whole

`OPTIONS.prohibit_verbatim` names files that an incremental package may change by a patch
only: `build.prop` has to keep its old contents until the very end.  The loop that
classifies the files raises `common.ExternalError` rather than send one of them whole.  The
loop that looks at the finished patches, and the lists of what is deleted, do not ask.

Both loops run before the comparison of the recovery images, which stops the function with a
`NameError`: what they decide is in the output zip by then.

- `HonoursProhibition` — no such file is sent whole or deleted
- `honoursProhibition_updating_iff` — when that is so, for any value of the comparison
- `honoursProhibition_iff` — when it is so in the function as it stands
- `buildProp_sent_whole` — a patch of `build.prop` that is too large
-/

namespace OdroidU2.Ota

open OdroidU2.Foundations

/-! ## §1 Raising an Error -/

/-- The computation raises `common.ExternalError`. -/
def Raises {α : Type} (x : Except PyError α) : Prop :=
  ∃ message, x = .error (.externalError message)

theorem raises_bind_iff {α β : Type} {x : Except PyError α} {f : α → Except PyError β} :
    Raises (x >>= f) ↔ Raises x ∨ ∃ a, x = .ok a ∧ Raises (f a) := by
  cases x with
  | error e =>
    have hbind : (Except.error e >>= f) = .error e := rfl
    simp [hbind, Raises]
  | ok a =>
    have hbind : (Except.ok a >>= f) = f a := rfl
    simp [hbind, Raises]

/-- A step that stops raises the error; one that goes on leaves it to the rest. -/
theorem StopsWhen.raises_bind_iff {α β : Type} {P Q : Prop} {x : Except PyError α}
    {f : α → Except PyError β} (h : StopsWhen P x) (hf : ∀ a, Raises (f a) ↔ Q) :
    Raises (x >>= f) ↔ P ∨ Q := by
  by_cases hP : P
  · obtain ⟨message, rfl⟩ := h.raises hP
    exact iff_of_true ⟨message, rfl⟩ (.inl hP)
  · obtain ⟨a, rfl⟩ := h.goes_on hP
    rw [or_iff_right hP]
    exact hf a

/-- A computation that never raises the error, followed by another one. -/
theorem not_raises_bind {α β : Type} {x : Except PyError α} {f : α → Except PyError β}
    (hx : ¬Raises x) (hf : ∀ a, ¬Raises (f a)) : ¬Raises (x >>= f) := by
  rw [Ota.raises_bind_iff, not_or]
  exact ⟨hx, fun ⟨a, _, ha⟩ => hf a ha⟩

theorem not_raises_ok {α : Type} (a : α) : ¬Raises (.ok a : Except PyError α) := by
  rintro ⟨_, h⟩
  cases h

section Items

theorem not_raises_appendChild (items : Items) (parent child : Path) :
    ¬Raises (appendChild items parent child) := by
  rintro ⟨message, h⟩
  unfold appendChild at h
  split at h
  · cases h
  · split at h <;> cases h

theorem not_raises_getItemRev (items : Items) (l : List String) (dir : Bool) :
    ¬Raises (getItemRev items l dir) := by
  induction l generalizing dir with
  | nil => exact not_raises_ok _
  | cons x parent ih =>
    rw [getItemRev]
    split
    · exact not_raises_ok _
    · exact not_raises_bind (ih true) fun items₁ =>
        not_raises_bind (not_raises_appendChild _ _ _) fun items₂ => not_raises_ok _

theorem not_raises_getItem (items : Items) (name : Path) (dir : Bool) :
    ¬Raises (getItem items name dir) :=
  not_raises_getItemRev items name.reverse dir

theorem not_raises_copySystemItems (items : Items) (z : List ZipEntry) :
    ¬Raises (copySystemItems items z) := by
  induction z generalizing items with
  | nil => exact not_raises_ok _
  | cons e z ih =>
    cases e with
    | dir path => exact not_raises_bind (not_raises_getItem _ _ _) fun items₁ => ih items₁
    | file path data => exact not_raises_bind (not_raises_getItem _ _ _) fun items₁ => ih items₁
    | symlink path dest => exact ih items

theorem not_raises_copySystemFiles (z : List ZipEntry) (items : Items) :
    ¬Raises (copySystemFiles z items) :=
  not_raises_bind (not_raises_copySystemItems items z) fun _ => not_raises_ok _

theorem not_raises_mapM {α β : Type} {f : α → Except PyError β} (hf : ∀ a, ¬Raises (f a))
    (l : List α) : ¬Raises (l.mapM f) := by
  induction l with
  | nil => exact not_raises_ok _
  | cons a l ih =>
    rw [List.mapM_cons]
    exact not_raises_bind (hf a) fun b => not_raises_bind ih fun bs => not_raises_ok _

theorem not_raises_itemTree (items : Items) (fuel : Nat) (name : Path) :
    ¬Raises (itemTree items fuel name) := by
  -- along the recursion; it can fail, and not with an ExternalError
  induction fuel generalizing name with
  | zero =>
    rintro ⟨message, h⟩
    cases h
  | succ fuel ih =>
    rw [itemTree]
    split
    · rintro ⟨message, h⟩
      cases h
    · rintro ⟨message, h⟩
      cases h
    · exact not_raises_ok _
    · exact not_raises_bind (not_raises_mapM ih _) fun _ => not_raises_ok _

theorem not_raises_setSystemPermissions (order : DictOrder) (items : Items) :
    ¬Raises (setSystemPermissions order items) := by
  rw [setSystemPermissions]
  apply not_raises_bind (not_raises_getItem _ _ _)
  intro items₁
  apply not_raises_bind (not_raises_itemTree _ _ _)
  intro tree
  split
  · rintro ⟨message, h⟩
    cases h
  · exact not_raises_ok _

theorem not_raises_permissionCmds (order : DictOrder) (target : Build) (u : Bool) :
    ¬Raises (permissionCmds order target u) := by
  rw [permissionCmds]
  refine not_raises_bind ?_ fun items₀ => ?_
  · rw [recoveryItems]
    split
    · exact not_raises_bind (not_raises_getItem _ _ _) fun _ => not_raises_getItem _ _ _
    · exact not_raises_ok _
  · exact not_raises_bind (not_raises_copySystemFiles _ _) fun _ =>
      not_raises_bind (not_raises_setSystemPermissions _ _) fun _ => not_raises_ok _

end Items

theorem not_raises_bootUpdate (tools : Tools) (target source : Bytes) :
    ¬Raises (bootUpdate tools target source) := by
  rintro ⟨message, h⟩
  unfold bootUpdate at h
  split at h
  · cases h
  · split at h <;> cases h

/-! ## §2 When the Function Raises It -/

theorem stopsWhen_assertedDevice (opts : Options) (target : Build) :
    StopsWhen (opts.overrideDevice = none ∧ target.buildProp "ro.product.device" = none)
      (assertedDevice opts target) := by
  have hprop := stopsWhen_getBuildProp "ro.product.device" target.buildProp
  rw [assertedDevice]
  cases opts.overrideDevice with
  | none => exact ⟨fun h => hprop.raises h.2, fun h => hprop.goes_on fun hp => h ⟨rfl, hp⟩⟩
  | some device => exact ⟨nofun, fun _ => ⟨device, rfl⟩⟩

/-- One of the errors the function raises itself: before the comparison of the recovery
images, by that comparison, or because nobody says which device the package is for. -/
def StopsExternally (opts : Options) (target source : Build) (updating : Except PyError Bool) :
    Prop :=
  StopsBefore opts target source ∨ Raises updating ∨
    ∃ u, updating = .ok u ∧ opts.overrideDevice = none ∧
      target.buildProp "ro.product.device" = none

theorem raises_writeIncremental_iff (tools : Tools) (order : DictOrder) (opts : Options)
    (target source : Build) (updating : Except PyError Bool) :
    Raises (writeIncrementalOTAPackage tools order opts target source updating) ↔
      StopsExternally opts target source updating := by
  rw [writeIncrementalOTAPackage, StopsExternally, StopsBefore]
  simp only [or_assoc]
  apply (stopsWhen_getBuildProp _ _).raises_bind_iff
  intro preDevice
  apply (stopsWhen_getBuildProp _ _).raises_bind_iff
  intro postTimestamp
  apply (stopsWhen_makePlan tools opts target source).raises_bind_iff
  intro plan
  apply (stopsWhen_getBuildProp _ _).raises_bind_iff
  intro sourceFp
  apply (stopsWhen_getBuildProp _ _).raises_bind_iff
  intro targetFp
  rw [raises_bind_iff]
  refine or_congr_right (exists_congr fun u => and_congr_right fun _ => ?_)
  rw [← or_false (_ ∧ _)]
  apply (stopsWhen_assertedDevice opts target).raises_bind_iff
  intro device
  -- whatever goes wrong from here on is no `ExternalError`
  refine iff_of_false ?_ id
  apply not_raises_bind (not_raises_bootUpdate _ _ _)
  intro boot
  apply not_raises_bind (not_raises_permissionCmds _ _ _)
  intro permissions
  exact not_raises_bind (not_raises_copySystemFiles _ _) fun links => not_raises_ok _

/-! ## §3 What Becomes of a Prohibited File -/

/-- The function raises `common.ExternalError`, or no prohibited file is in
`verbatim_targets`, in the output zip or in what the script deletes. -/
def HonoursProhibition (tools : Tools) (order : DictOrder) (opts : Options)
    (target source : Build) (updating : Except PyError Bool) : Prop :=
  Raises (writeIncrementalOTAPackage tools order opts target source updating) ∨
    ((∀ plan, makePlan tools opts target.system source.system = .ok plan →
      ∀ fn ∈ opts.prohibitVerbatim, fn ∉ plan.verbatimTargets.map Prod.fst) ∧
    ∀ out, writeIncrementalOTAPackage tools order opts target source updating = .ok out →
      ∀ fn ∈ opts.prohibitVerbatim, fn ∉ out.package.system.map Prod.fst ∧
        ∀ names, .deleteFiles names ∈ out.script → fn ∉ names)

/-- A file of both builds differs, and the differ finds no patch or one that is too large. -/
def PatchRefused (tools : Tools) (opts : Options) (target source : Build) (fn : FileName) : Prop :=
  ∃ tf sf, (loadSystemFiles target.system).get? fn = some tf ∧
    (loadSystemFiles source.system).get? fn = some sf ∧ tf ≠ sf ∧
    SendWhole opts tf (tools.diff.computePatch fn tf sf)

/-- The steps after the classification succeed: the comparison of the recovery images, the
patch of the boot image, and the Items of both builds. -/
structure GoesThrough (tools : Tools) (order : DictOrder) (target source : Build)
    (updating : Except PyError Bool) (u : Bool) : Prop where
  updating_eq : updating = .ok u
  boot : ∃ b, bootUpdate tools target.boot source.boot = .ok b
  items : ∃ p, permissionCmds order target u = .ok p ∧
    ∃ links, copySystemFiles source.system p.2 = .ok links

/-- The script removes a name for what it is: a file of the source build alone, the recovery
image, a file that comes with a new one, a link of the source build alone, or one that the
source build does not have as it is. -/
def Removed (target source : Build) (u : Bool) (fn : FileName) : Prop :=
  (fn ∈ (loadSystemFiles source.system).keys ∧ fn ∉ (loadSystemFiles target.system).keys) ∨
  fn = .plain ["system", "recovery.img"] ∨ (u = true ∧ fn ∈ recoveryFiles) ∨
  (∃ s ∈ symlinksOf source.system, s.2 ∉ (symlinksOf target.system).map Prod.snd ∧
    fn = .plain s.2) ∨
  ∃ s ∈ symlinksOf target.system,
    (Dict.ofList ((symlinksOf source.system).map fun s => (s.2, s.1))).get? s.2 ≠ some s.1 ∧
      fn = .plain s.2

section Prohibited

variable {tools : Tools} {order : DictOrder} {opts : Options} {target source : Build}
variable {updating : Except PyError Bool}

/-- A prohibited file that the classification lets pass is sent whole when its patch is no
use. -/
theorem mem_verbatimTargets_iff_refused {plan : Plan}
    (hplan : makePlan tools opts target.system source.system = .ok plan)
    (hsent : ¬∃ fn, MustNotBeSent opts target source fn) {fn : FileName}
    (hfn : fn ∈ opts.prohibitVerbatim) :
    fn ∈ plan.verbatimTargets.map Prod.fst ↔ PatchRefused tools opts target source fn := by
  have hkey (z : List ZipEntry) : fn ∈ (loadSystemFiles z).keys ↔
      ∃ data, (loadSystemFiles z).get? fn = some data := Dict.mem_keys_iff _ _
  -- the loop did not raise at the file, so it is in the source build and need not be sent whole
  have hmust (tf : Bytes) (htarget : (loadSystemFiles target.system).get? fn = some tf) :
      fn ∈ (loadSystemFiles source.system).keys ∧ fn ∉ opts.requireVerbatim := by
    by_contra hno
    refine hsent ⟨fn, (hkey _).mpr ⟨tf, htarget⟩, hfn, ?_⟩
    rwa [not_and_or, not_not] at hno
  simp only [List.mem_map, Prod.exists, exists_and_right, exists_eq_right,
    mem_verbatimTargets hplan]
  constructor
  · rintro ⟨tf, htarget, hwhole⟩
    obtain ⟨hsource, hrequire⟩ := hmust tf htarget
    obtain ⟨sf, hsf⟩ := (hkey _).mp hsource
    rw [hsf] at hwhole
    obtain ⟨hne, hsend⟩ := hwhole.resolve_left hrequire
    exact ⟨tf, sf, htarget, hsf, hne, hsend⟩
  · rintro ⟨tf, sf, htarget, hsf, hne, hsend⟩
    refine ⟨tf, htarget, ?_⟩
    rw [hsf]
    exact .inr ⟨hne, hsend⟩

/-- What the script deletes: what is sent whole, and what it removes for what it is. -/
theorem Parts.deletes_iff {u : Bool} (E : Parts tools order opts target source u)
    {fn : FileName} :
    (∃ names, .deleteFiles names ∈ E.script ∧ fn ∈ names) ↔
      fn ∈ E.plan.verbatimTargets.map Prod.fst ∨ Removed target source u fn := by
  obtain ⟨htarget, hsource⟩ := makePlan_data E.makePlan_eq
  -- the dict of the target's links has their paths for keys
  have hlink (s : LinkDest String × Path) :
      s.2 ∈ (Dict.ofList ((symlinksOf target.system).map fun s => (s.2, s.1))).keys ↔
        s.2 ∈ (symlinksOf target.system).map Prod.snd := by
    rw [Dict.mem_keys_ofList, List.map_map]
    rfl
  rw [E.mem_deleteFiles, unneededFiles, Removed, htarget, hsource]
  simp only [List.mem_append, List.mem_filter, List.mem_singleton, mem_sortedKeys,
    ← Dict.mem_keys_iff, symlinksToDelete, symlinksToCreate, List.mem_map (f := fun s => _),
    decide_eq_true_eq, hlink, or_assoc, and_assoc, eq_comm (b := fn)]

/-- When all steps succeed, so does the function. -/
theorem exists_output (hstops : ¬StopsExternally opts target source updating)
    {u : Bool} (hgoes : GoesThrough tools order target source updating u) :
    ∃ out, writeIncrementalOTAPackage tools order opts target source updating = .ok out := by
  -- none of the places that can raise does, in the order of the source
  rw [StopsExternally, StopsBefore] at hstops
  obtain ⟨hbefore, -, hdevice⟩ := not_or.mp hstops |>.imp_right not_or.mp
  obtain ⟨hpre, hstops⟩ := not_or.mp hbefore
  obtain ⟨hpost, hstops⟩ := not_or.mp hstops
  obtain ⟨hsent, hstops⟩ := not_or.mp hstops
  obtain ⟨hsourceFp, htargetFp⟩ := not_or.mp hstops
  obtain ⟨preDevice, hpre⟩ := (stopsWhen_getBuildProp _ _).goes_on hpre
  obtain ⟨postTimestamp, hpost⟩ := (stopsWhen_getBuildProp _ _).goes_on hpost
  obtain ⟨plan, hplan⟩ := (stopsWhen_makePlan tools opts target source).goes_on hsent
  obtain ⟨sourceFp, hsourceFp⟩ := (stopsWhen_getBuildProp _ _).goes_on hsourceFp
  obtain ⟨targetFp, htargetFp⟩ := (stopsWhen_getBuildProp _ _).goes_on htargetFp
  obtain ⟨device, hdevice⟩ := (stopsWhen_assertedDevice opts target).goes_on fun h =>
    hdevice ⟨u, hgoes.updating_eq, h⟩
  obtain ⟨b, hb⟩ := hgoes.boot
  obtain ⟨p, hp, links, hlinks⟩ := hgoes.items
  simp only [writeIncrementalOTAPackage, hpre, hpost, hplan, hsourceFp, htargetFp,
    hgoes.updating_eq, hdevice, hb, hp, hlinks, bind, Except.bind]
  exact ⟨_, rfl⟩

end Prohibited

/-- For any value of the comparison of the recovery images, the function honours the prohibition
exactly when it raises `common.ExternalError` for another reason, or no prohibited file has a
patch that is no use, and a script that is written to its end removes none for what it is. -/
theorem honoursProhibition_updating_iff (tools : Tools) (order : DictOrder) (opts : Options)
    (target source : Build) (updating : Except PyError Bool) :
    HonoursProhibition tools order opts target source updating ↔
      StopsExternally opts target source updating ∨
        ∀ fn ∈ opts.prohibitVerbatim, ¬PatchRefused tools opts target source fn ∧
          ∀ u, GoesThrough tools order target source updating u → ¬Removed target source u fn := by
  rw [HonoursProhibition, raises_writeIncremental_iff]
  apply or_congr_right'
  intro hstops
  have hsent : ¬∃ fn, MustNotBeSent opts target source fn := fun h =>
    hstops (.inl (.inr (.inr (.inl h))))
  constructor
  · -- a prohibited file that is refused a patch would be sent, and one that is removed would be
    -- deleted
    rintro ⟨hverbatim, houtput⟩ fn hfn
    constructor
    · obtain ⟨plan, hplan⟩ := (stopsWhen_makePlan tools opts target source).goes_on hsent
      rw [← mem_verbatimTargets_iff_refused hplan hsent hfn]
      exact hverbatim plan hplan fn hfn
    · intro u hgoes hremoved
      obtain ⟨out, hout⟩ := exists_output hstops hgoes
      obtain ⟨u', hu', E, hscript, -⟩ := exists_parts hout
      obtain rfl : u = u' := Except.ok.inj (hgoes.updating_eq.symm.trans hu')
      obtain ⟨names, hnames, hmem⟩ := E.deletes_iff.mpr (.inr hremoved)
      exact (houtput out hout fn hfn).2 names (hscript ▸ hnames) hmem
  · -- the files sent are those required, new or refused; the files deleted are these and those
    -- removed
    intro hfiles
    have hverbatim : ∀ plan, makePlan tools opts target.system source.system = .ok plan →
        ∀ fn ∈ opts.prohibitVerbatim, fn ∉ plan.verbatimTargets.map Prod.fst := by
      intro plan hplan fn hfn
      rw [mem_verbatimTargets_iff_refused hplan hsent hfn]
      exact (hfiles fn hfn).1
    refine ⟨hverbatim, fun out hout fn hfn => ?_⟩
    obtain ⟨u, hu, E, hscript, hpackage⟩ := exists_parts hout
    have hwhole := hverbatim E.plan E.makePlan_eq fn hfn
    rw [hpackage, hscript]
    refine ⟨hwhole, fun names hnames hmem => ?_⟩
    rcases E.deletes_iff.mp ⟨names, hnames, hmem⟩ with hsentWhole | hremoved
    · exact hwhole hsentWhole
    · obtain ⟨links, hcopy⟩ := E.copySource_ok
      exact (hfiles fn hfn).2 u ⟨hu, ⟨_, E.boot_eq⟩, ⟨_, E.permissions_eq, _, hcopy⟩⟩ hremoved

/-- **When no prohibited file is sent whole or deleted**: for every pair of builds, all
options and every differ, the function honours the prohibition exactly when one of its own
errors comes before the comparison of the recovery images, or no prohibited file has a patch
that is no use. -/
theorem honoursProhibition_iff (tools : Tools) (order : DictOrder) (opts : Options)
    (target source : Build) :
    HonoursProhibition tools order opts target source (updatingRecoveryValue target source) ↔
      StopsBefore opts target source ∨
        ∀ fn ∈ opts.prohibitVerbatim, ¬PatchRefused tools opts target source fn := by
  rw [honoursProhibition_updating_iff, updatingRecoveryValue_eq]
  -- the comparison raises a `NameError`, so no script gets as far as its deletions
  have hstops : StopsExternally opts target source (.error .nameError) ↔
      StopsBefore opts target source := by
    refine or_iff_left ?_
    rintro (⟨message, h⟩ | ⟨u, h, -⟩)
    · cases h
    · cases h
  have hgoes (u : Bool) : ¬GoesThrough tools order target source (.error .nameError) u := by
    rintro ⟨h, -, -⟩
    cases h
  simp only [hstops, hgoes, false_implies, implies_true, and_true]

/-- The patch of a `build.prop` of one byte is one byte long, which is more than 95 percent:
the file is sent whole. -/
theorem buildProp_sent_whole : ¬HonoursProhibition plainRecovery.toTools DictOrder.insertion
    smallOptions smallTarget smallSource (updatingRecoveryValue smallTarget smallSource) := by
  rintro (⟨message, hraises⟩ | ⟨hverbatim, -⟩)
  · -- the function ends, but with the `NameError` of the comparison
    cases hraises
  · exact hverbatim _ rfl buildPropName (by decide) (by decide +kernel)

end OdroidU2.Ota
