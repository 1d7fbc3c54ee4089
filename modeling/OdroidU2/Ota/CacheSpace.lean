import OdroidU2.Ota.PatchChecks

/-!
# The Space a Package Asks For

Before an incremental script changes anything it asks for free space in `/cache`, where the
updater keeps the source of a patch while it applies it.  The amount is the largest source
of the patched system files; the boot image is patched the same way, and left out.

- `CacheCovers` — the amount is enough for whatever is patched later
- `cacheCovers_iff` — it is exactly when the boot image does not change, or is no larger than
  the source of some patched file
- `boot_without_space` — a package that patches a boot image and asks for no space at all
-/

namespace OdroidU2.Ota

open OdroidU2.Foundations

/-! ## §1 What Is Patched -/

/-- The object of the source build that a command patches. -/
def sourceObject (source : Build) : Cmd → Option Bytes
  | .applyPatch (.file path) .. => (loadSystemFiles source.system).get? (.plain path)
  | .applyPatch (.partition ..) .. => some source.boot
  | _ => none

/-- Before every patch there is a request for space, and it is for at least the size of
what the patch replaces. -/
def CacheCovers (source : Build) (script : List Cmd) : Prop :=
  ∀ done c rest, script = done ++ c :: rest → ∀ data, sourceObject source c = some data →
    (∃ amount, .cacheFreeSpaceCheck amount ∈ done) ∧
      ∀ amount, .cacheFreeSpaceCheck amount ∈ done → data.length ≤ amount

/-- A file of both builds is sent as a patch: it differs, need not be sent whole, and the
patch is small enough. -/
def SentAsPatch (tools : Tools) (opts : Options) (target source : Build) (fn : FileName)
    (tf sf : Bytes) : Prop :=
  (loadSystemFiles target.system).get? fn = some tf ∧
    (loadSystemFiles source.system).get? fn = some sf ∧ fn ∉ opts.requireVerbatim ∧ tf ≠ sf ∧
    ∃ patch, tools.diff.computePatch fn tf sf = some patch ∧ ¬SendWhole opts tf (some patch)

/-- A directory has no contents. -/
theorem loadSystemFiles_slash {z : List ZipEntry} {fn : FileName} {data : Bytes}
    (h : (loadSystemFiles z).get? fn = some data) (hslash : fn.slash = true) : data = [] := by
  obtain ⟨e, -, he⟩ := List.mem_filterMap.mp (Dict.mem_of_get?_ofList h)
  cases e with
  | dir path =>
    cases he
    rfl
  | file path contents =>
    cases he
    cases hslash
  | symlink path dest => cases he

/-- Only files are sent as a patch. -/
theorem SentAsPatch.eq_plain {tools : Tools} {opts : Options} {target source : Build}
    {fn : FileName} {tf sf : Bytes} (h : SentAsPatch tools opts target source fn tf sf) :
    fn = .plain fn.path := by
  obtain ⟨htarget, hsource, -, hne, -⟩ := h
  apply FileName.eq_plain
  by_contra hslash
  rw [Bool.not_eq_false] at hslash
  rw [loadSystemFiles_slash htarget hslash, loadSystemFiles_slash hsource hslash] at hne
  exact hne rfl

/-- An upper bound of the sources is an upper bound of `largest_source_size`. -/
theorem largestSourceSize_le_iff {plan : Plan} {n : Nat} :
    plan.largestSourceSize ≤ n ↔ ∀ e ∈ plan.patchList, e.source.length ≤ n := by
  have hfold (l : List PatchEntry) (m : Nat) :
      l.foldl (fun m e => max m e.source.length) m ≤ n ↔
        m ≤ n ∧ ∀ e ∈ l, e.source.length ≤ n := by
    induction l generalizing m with
    | nil => simp
    | cons e l ih => rw [List.foldl_cons, ih, max_le_iff, List.forall_mem_cons, and_assoc]
  rw [Plan.largestSourceSize, hfold, and_iff_right (Nat.zero_le n)]

/-! ## §2 What Is Asked For -/

namespace Parts

variable {tools : Tools} {order : DictOrder} {opts : Options} {target source : Build}
variable {updatingRecovery : Bool} (E : Parts tools order opts target source updatingRecovery)

theorem mem_patchList_iff {fn : FileName} {tf sf : Bytes} :
    (∃ e ∈ E.plan.patchList, e.name = fn ∧ e.target = tf ∧ e.source = sf) ↔
      SentAsPatch tools opts target source fn tf sf := by
  -- a patch is made for a file that changed, and kept if it is small enough
  constructor
  · rintro ⟨e, he, rfl, rfl, rfl⟩
    obtain ⟨htarget, hsource, hne, hwhole, hpatch⟩ := (mem_patchList E.makePlan_eq).mp he
    rw [Whole, not_or, hpatch] at hwhole
    exact ⟨htarget, hsource, hwhole.1, hne, e.patch, hpatch, fun hsend => hwhole.2 ⟨hne, hsend⟩⟩
  · rintro ⟨htarget, hsource, hrequire, hne, patch, hpatch, hsend⟩
    refine ⟨⟨fn, tf, sf, patch⟩, (mem_patchList E.makePlan_eq).mpr ?_, rfl, rfl, rfl⟩
    refine ⟨htarget, hsource, hne, ?_, hpatch⟩
    rw [Whole, not_or, hpatch]
    exact ⟨hrequire, fun h => hsend h.2⟩

/-- The amount that is asked for, if there is anything to ask for. -/
theorem space_mem_verify {amount : Nat} : .cacheFreeSpaceCheck amount ∈ E.verify ↔
    amount = E.plan.largestSourceSize ∧
      (E.plan.patchList ≠ [] ∨ updatingRecovery = true ∨ E.boot.isSome = true) := by
  have hpatch (e : PatchEntry) : patchCheckCmd tools e ≠ .cacheFreeSpaceCheck amount := nofun
  simp only [verify, verifyCmds, List.mem_append, List.mem_cons, List.not_mem_nil, or_false,
    List.mem_map, Option.mem_toList, Option.map_eq_some_iff, reduceCtorEq, hpatch, and_false,
    false_or]
  split
  · next hspace => simp [hspace]
  · next hspace => simp [hspace]

/-- The commands that patch something of the source build. -/
theorem sourceObject_of_mem_install {c : Cmd} {data : Bytes} (hc : c ∈ E.install)
    (hdata : sourceObject source c = some data) :
    (∃ e ∈ E.plan.patchList, data = e.source) ∨ ∃ b, E.boot = some b ∧ data = source.boot := by
  -- only `apply_patch` needs room in the cache
  have hpatches : c.Patches := by
    cases c with
    | applyPatch => exact ⟨_, _, _, _, _, rfl⟩
    | _ => cases hdata
  rcases E.patches_cases hc hpatches with ⟨e, he, rfl⟩ | ⟨b, hb, rfl⟩
  · left
    have hsent := E.mem_patchList_iff.mp ⟨e, he, rfl, rfl, rfl⟩
    have hget : (loadSystemFiles source.system).get? (.plain e.name.path) = some data := hdata
    rw [← hsent.eq_plain, hsent.2.1] at hget
    exact ⟨e, he, (Option.some.inj hget).symm⟩
  · cases hdata
    exact .inr ⟨b, hb, rfl⟩

/-- Every request for space of the script is the one of the first part. -/
theorem space_of_mem_script {amount : Nat} (h : .cacheFreeSpaceCheck amount ∈ E.script) :
    amount = E.plan.largestSourceSize := by
  rcases List.mem_append.mp h with hverify | hinstall
  · exact (E.space_mem_verify.mp hverify).1
  · cases E.installStep_of_mem hinstall with
    | permission _ path names => cases names

/-- The space is enough exactly when it is enough for the boot image, if that is patched. -/
theorem cacheCovers_script_iff : CacheCovers source E.script ↔
    (E.boot.isSome = true → source.boot.length ≤ E.plan.largestSourceSize) := by
  constructor
  · -- the patch of the boot image comes after the check, whose amount is the largest file of the
    -- system
    intro hcovers hboot
    obtain ⟨b, hb⟩ := Option.isSome_iff_exists.mp hboot
    have hmem : Cmd.applyPatch (b.partition tools opts) b.target.length
        (tools.sha1.digest b.target) (tools.sha1.digest b.source) bootPatchName ∈ E.script := by
      simp [script, install, remove, bootCmds, hb]
    obtain ⟨done, rest, hsplit⟩ := List.append_of_mem hmem
    obtain ⟨⟨amount, hamount⟩, hle⟩ := hcovers done _ rest hsplit source.boot rfl
    have hscript : .cacheFreeSpaceCheck amount ∈ E.script := by
      rw [hsplit]
      exact List.mem_append_left _ hamount
    rw [← E.space_of_mem_script hscript]
    exact hle amount hamount
  · intro hboot done c rest hsplit data hdata
    have hnot : c ∉ E.verify := by
      intro hc
      cases c with
      | applyPatch => exact E.looks_of_mem_verify hc trivial
      | _ => cases hdata
    -- all of the first part comes before the patch
    obtain ⟨mid, rfl, hinstall⟩ := prefix_of_not_mem hsplit hnot
    have hobject := E.sourceObject_of_mem_install (by simp [hinstall]) hdata
    have hspace : .cacheFreeSpaceCheck E.plan.largestSourceSize ∈ E.verify := by
      refine E.space_mem_verify.mpr ⟨rfl, ?_⟩
      rcases hobject with ⟨e, he, -⟩ | ⟨b, hb, -⟩
      · exact .inl (List.ne_nil_of_mem he)
      · exact .inr (.inr (by rw [hb]; rfl))
    refine ⟨⟨_, List.mem_append_left mid hspace⟩, fun amount hamount => ?_⟩
    have hscript : .cacheFreeSpaceCheck amount ∈ E.script := by
      rw [hsplit]
      exact List.mem_append_left _ hamount
    rw [E.space_of_mem_script hscript]
    rcases hobject with ⟨e, he, rfl⟩ | ⟨b, hb, rfl⟩
    · exact largestSourceSize_le_iff.mp le_rfl e he
    · exact hboot (by rw [hb]; rfl)

end Parts

/-! ## §3 When It Is Enough -/

/-- The boot image needs no space, or no more than some file that is sent as a patch. -/
def BootFits (tools : Tools) (opts : Options) (target source : Build) : Prop :=
  target.boot = source.boot ∨ source.boot = [] ∨
    ∃ fn tf sf, SentAsPatch tools opts target source fn tf sf ∧ source.boot.length ≤ sf.length

/-- **When the space is enough**: for every pair of builds, all options and every differ,
the amount an incremental script asks for covers every source that is patched later exactly
when the boot image does not change, is empty, or is no larger than the source of some
system file that is sent as a patch. -/
theorem cacheCovers_iff (tools : Tools) (order : DictOrder) (opts : Options)
    (target source : Build) (updatingRecovery : Except PyError Bool) (out : Output)
    (hout : writeIncrementalOTAPackage tools order opts target source updatingRecovery = .ok out) :
    CacheCovers source out.script ↔ BootFits tools opts target source := by
  obtain ⟨u, -, E, hscript, -⟩ := exists_parts hout
  rw [hscript, E.cacheCovers_script_iff, BootFits]
  rcases bootUpdate_ok E.boot_eq with ⟨hnone, heq⟩ | ⟨patch, hsome, hne⟩
  · simp [hnone, heq]
  · rw [hsome, Option.isSome_some, imp_iff_right rfl, or_iff_right hne]
    constructor
    · intro hle
      by_contra hno
      rw [not_or, not_exists] at hno
      obtain ⟨hnil, hpatched⟩ := hno
      have hpos : 0 < source.boot.length := List.length_pos_iff.mpr hnil
      -- every source of a patch is smaller, and so is the largest
      have hlt : E.plan.largestSourceSize ≤ source.boot.length - 1 := by
        rw [largestSourceSize_le_iff]
        intro e he
        have hsent := E.mem_patchList_iff.mp ⟨e, he, rfl, rfl, rfl⟩
        by_contra hge
        exact hpatched e.name ⟨e.target, e.source, hsent, by omega⟩
      omega
    · rintro (hnil | ⟨fn, tf, sf, hsent, hle⟩)
      · rw [hnil]
        exact Nat.zero_le _
      · obtain ⟨e, he, -, -, rfl⟩ := E.mem_patchList_iff.mpr hsent
        exact hle.trans (largestSourceSize_le_iff.mp le_rfl e he)

/-- A program of forty bytes and a boot image of fifty change: the boot image is the larger. -/
theorem cacheCovers_iff_program : ∃ out, writeIncrementalOTAPackage shortDiffer
      DictOrder.insertion smallOptions (programBuild 2) (programBuild 1) (.ok false) = .ok out ∧
    (CacheCovers (programBuild 1) out.script ↔
      BootFits shortDiffer smallOptions (programBuild 2) (programBuild 1)) := by
  obtain ⟨out, hout⟩ : ∃ out, writeIncrementalOTAPackage shortDiffer DictOrder.insertion
      smallOptions (programBuild 2) (programBuild 1) (.ok false) = .ok out := ⟨_, rfl⟩
  exact ⟨out, hout, cacheCovers_iff shortDiffer DictOrder.insertion smallOptions
    (programBuild 2) (programBuild 1) (.ok false) out hout⟩

/-- Two builds that differ in a boot image of fifty bytes: the script asks for no space at
all before it patches the image. -/
theorem boot_without_space : ∃ out, writeIncrementalOTAPackage shortDiffer DictOrder.insertion
      smallOptions { programBuild 1 with boot := List.replicate 50 2 } (programBuild 1)
      (.ok false) = .ok out ∧
    .cacheFreeSpaceCheck 0 ∈ out.script ∧ ¬CacheCovers (programBuild 1) out.script := by
  obtain ⟨out, hout⟩ : ∃ out, writeIncrementalOTAPackage shortDiffer DictOrder.insertion
      smallOptions { programBuild 1 with boot := List.replicate 50 2 } (programBuild 1)
      (.ok false) = .ok out := ⟨_, rfl⟩
  have hspace : .cacheFreeSpaceCheck 0 ∈ out.script := by
    cases hout
    decide
  refine ⟨out, hout, hspace, ?_⟩
  obtain ⟨u, -, E, hscript, -⟩ := exists_parts hout
  rw [hscript] at hspace ⊢
  rw [E.cacheCovers_script_iff, ← E.space_of_mem_script hspace]
  intro hcovers
  -- the boot image is patched, and it is longer than the zero bytes asked for
  rcases bootUpdate_ok E.boot_eq with ⟨-, heq⟩ | ⟨patch, hsome, -⟩
  · exact absurd heq (by decide)
  · exact absurd (hcovers (by rw [hsome]; rfl)) (by decide)

end OdroidU2.Ota
