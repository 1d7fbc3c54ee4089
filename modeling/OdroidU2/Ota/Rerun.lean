import Mathlib
import OdroidU2.Ota.IncrementalCorrect

/-!
# Running an Interrupted Update Again

`build.prop` is patched last, so that an interrupted update finds a fingerprint it knows
when it is run again.  This holds as long as `build.prop` is patched, or stays as it is:

- `rerun_iff` — the script can be cut off anywhere and run again exactly if `build.prop` is
  not sent whole
- `rerun_aborts` — where the differ's patch of `build.prop` is not worth it, the file is
  deleted with the unneeded ones, and the fingerprint assertion aborts every further run
-/

namespace OdroidU2.Ota

open OdroidU2.Foundations Pointwise

namespace Emitted

variable {rec : Recovery} {order : DictOrder} {opts : Options} {target source : Build}
variable (E : Emitted rec.toTools order opts target source)
variable (hpair : UpdatePair rec target source)
include hpair

/-! ## §1 Reruns That Succeed -/

/-- Unless `build.prop` is sent whole, the script ends in the same device after any
interruption. -/
theorem rerun {d : Device} (hd : HoldsSource opts target source d)
    (hwhole : ¬ BuildPropSentWhole rec.toTools opts target source) {done rest : List Cmd}
    (hsplit : E.script = done ++ rest) {d₁ : Device}
    (hdone : runScript rec E.package d done = some d₁) :
    ∃ d₂, runScript rec E.package d₁ E.script = some d₂ ∧
      runScript rec E.package d E.script = some d₂ := by
  choose N final hN hsettles hagrees using fun p => E.exists_settles hpair hd p fun _ => hwhole
  -- the file system, path by path
  obtain ⟨fs₁, hfs₁, hagain⟩ := run_restart (fun c hc => E.actsAs hpair hc)
    (fun p c hc n n' hn hact => (hsettles p).kept c hc n n' hn hact)
    (fun p n hn => (hsettles p).ends n hn) (hd.sound hpair) hN hsplit
  have honce : runTree rec E.package d.fs E.script = some final :=
    (run_of_follow (fun c hc => E.actsAs hpair hc) d.fs final (hd.sound hpair)
      fun p => (hsettles p).ends _ (hN p)).1
  obtain ⟨hallow, htree, hboot, hdevice, hcache⟩ := (runScript_eq_some_iff rec E.package).mp hdone
  have hfs : d₁.fs = fs₁ := Option.some.inj (htree.symm.trans hfs₁)
  -- the boot partition holds one of the two images
  have hmem : ∀ c ∈ done, c ∈ E.script := fun c hc => hsplit ▸ List.mem_append_left rest hc
  have hboot₁ := E.runBoot_mem hpair (.inl hd.boot) hmem hboot
  -- the checks that do not look at files pass again
  have hallow₁ : ∀ c ∈ E.script, d₁.Allows c := by
    intro c hc
    have hc := E.allows hpair hd hc
    cases c with
    | assertDevice device => exact hdevice.trans hc
    | cacheFreeSpaceCheck amount => exact hc.trans hcache.ge
    | _ => trivial
  refine ⟨{ d with fs := final, boot := target.boot }, ?_, ?_⟩
  · rw [runScript_eq_some_iff]
    refine ⟨hallow₁, ?_, E.runBoot_script hpair hboot₁, hdevice.symm, hcache.symm⟩
    rw [hfs]
    exact hagain
  · rw [runScript_eq_some_iff]
    exact ⟨fun c hc => E.allows hpair hd hc, honce, E.runBoot_script hpair (.inl hd.boot), rfl, rfl⟩

/-! ## §2 Reruns That Abort -/

/-- The script up to the unneeded files. -/
def removed : List Cmd :=
  verifyCmds rec.toTools opts E.plan E.sourceFp E.targetFp E.device E.boot false ++
    removeCmds opts E.plan

/-- Without `build.prop` the script aborts. -/
theorem runScript_eq_none {d : Device} (hsound : SoundTree (DirIn target source) d.fs)
    (hprop : d.fs ["system", "build.prop"] = none) :
    runScript rec E.package d E.script = none := by
  have hread : readFile d.fs ["system", "build.prop"] = none := by
    have hbelow : Below (DirIn target source) ["system", "build.prop"] :=
      E.fits hpair .fingerprint
    have hlink : d.fs.NoLinkAt ["system", "build.prop"] := by
      intro n hn
      rw [hprop] at hn
      cases hn
    rw [readFile, hsound.tree.lookup (hsound.plain hbelow) hlink, hprop]
  -- the second command of the script reads `build.prop`
  have hassert : execTree rec E.package d.fs (.assertSomeFingerprint [E.sourceFp, E.targetFp]) =
      none := by
    rw [execTree, hread]
    rfl
  cases hrun : runScript rec E.package d E.script with
  | none => rfl
  | some d' =>
    obtain ⟨-, htree, -⟩ := (runScript_eq_some_iff rec E.package).mp hrun
    obtain ⟨rest, hscript⟩ : ∃ rest, E.script = .mount ["system"] ::
        .assertSomeFingerprint [E.sourceFp, E.targetFp] :: rest := ⟨_, rfl⟩
    have hmount : execTree rec E.package d.fs (.mount ["system"]) = some d.fs := rfl
    rw [hscript, runTree_cons, hmount, Option.bind_some, runTree_cons, hassert] at htree
    cases htree

/-- A `build.prop` that is sent whole is deleted with the unneeded files. -/
theorem rerun_aborts {d : Device} (hd : HoldsSource opts target source d)
    (hwhole : BuildPropSentWhole rec.toTools opts target source) :
    ∃ rest d₁, E.script = E.removed ++ rest ∧ runScript rec E.package d E.removed = some d₁ ∧
      runScript rec E.package d₁ E.script = none := by
  obtain ⟨tf, sf, ht, hs, hwhole⟩ := hwhole
  obtain ⟨tf', sf', perm, ht', hs', hfs⟩ := buildProp_files hpair hd
  rw [ht] at ht'
  cases ht'
  rw [hs] at hs'
  cases hs'
  have hsent : E.SentWhole ["build.prop"] tf := by
    unfold SentWhole
    rw [hs]
    exact hwhole
  -- the interruption comes after the unneeded files are gone
  obtain ⟨rest, hsplit⟩ : ∃ rest, E.script = E.removed ++ rest := by
    refine ⟨patchCmds rec.toTools E.plan ++ bootCmds rec.toTools opts E.boot ++
      unpackCmds E.plan (symlinksOf source.system) (symlinksOf target.system) ++ E.permissions ++
      finishCmds rec.toTools E.plan, ?_⟩
    simp [script, changes, removed]
  obtain ⟨d₁, hrun, hsound, hpaths⟩ := E.exists_run_prefix hpair hd hsplit
  refine ⟨rest, d₁, hsplit, hrun, E.runScript_eq_none hpair hsound ?_⟩
  -- what is left of `build.prop` after the first delete command
  have hunneeded : FileName.plain ["system", "build.prop"] ∈ unneededFiles E.plan :=
    (E.mem_unneeded hpair).mpr (.inl ⟨tf, ht, hsent⟩)
  have hnocheck : E.PassesChecks ["system", "build.prop"] (some (.file sf perm)) := by
    intro e he hp
    obtain ⟨ht', -, hnot⟩ :=
      E.not_whole_of_patch hpair (q := ["build.prop"]) he (name_eq_plain hpair E he hp)
    rw [ht] at ht'
    cases ht'
    exact absurd hsent hnot
  have hgone : follow (act rec E.package) ["system", "build.prop"] (some (.file sf perm))
      E.removed = some none := by
    have hpre : ["system"] <+: ["system", "build.prop"] := ⟨["build.prop"], rfl⟩
    rw [removed, follow_append, E.follow_verify (passes_source hpair E hs perm) hnocheck,
      Option.bind_some, E.follow_remove hpre, if_pos hunneeded]
    rfl
  have hpath := (hpaths ["system", "build.prop"]).1
  rw [hfs, hgone] at hpath
  exact (Option.some.inj hpath).symm

end Emitted

/-! ## §3 When an Update Can Be Run Again -/

/-- **Rerun**: from whatever a prefix of the script leaves, the whole script runs to the
same `/system` as without interruption, if and only if `build.prop` is not sent whole. -/
theorem rerun_iff (rec : Recovery) (order : DictOrder) (opts : Options) (target source : Build)
    (hpair : UpdatePair rec target source) (out : Output)
    (hout : writeIncrementalOTAPackage rec.toTools order opts target source (.ok false) = .ok out)
    (d : Device) (hd : HoldsSource opts target source d) :
    (∀ done rest, out.script = done ++ rest →
      ∀ d₁, runScript rec out.package d done = some d₁ →
        ∃ d₂ d', runScript rec out.package d₁ out.script = some d₂ ∧
          runScript rec out.package d out.script = some d' ∧
          ∀ p, d₂.fs ("system" :: p) = d'.fs ("system" :: p)) ↔
      ¬ BuildPropSentWhole rec.toTools opts target source := by
  obtain ⟨E, hscript, hpackage⟩ := exists_emitted hout
  rw [hscript, hpackage]
  constructor
  · -- after the delete there is no `build.prop` whose fingerprint could be read
    intro hrerun hwhole
    obtain ⟨rest, d₁, hsplit, hdone, habort⟩ := E.rerun_aborts hpair hd hwhole
    obtain ⟨d₂, -, hagain, -⟩ := hrerun _ rest hsplit d₁ hdone
    rw [habort] at hagain
    cases hagain
  · intro hwhole done rest hsplit d₁ hdone
    obtain ⟨d₂, hagain, honce⟩ := E.rerun hpair hd hwhole hsplit hdone
    exact ⟨d₂, d₂, hagain, honce, fun _ => rfl⟩

theorem rerun_iff_small : ∃ out, writeIncrementalOTAPackage plainRecovery.toTools
    DictOrder.insertion smallOptions smallTarget smallSource (.ok false) = .ok out ∧
    ((∀ done rest, out.script = done ++ rest →
      ∀ d₁, runScript plainRecovery out.package smallHolder done = some d₁ →
        ∃ d₂ d', runScript plainRecovery out.package d₁ out.script = some d₂ ∧
          runScript plainRecovery out.package smallHolder out.script = some d' ∧
          ∀ p, d₂.fs ("system" :: p) = d'.fs ("system" :: p)) ↔
      ¬ BuildPropSentWhole plainRecovery.toTools smallOptions smallTarget smallSource) := by
  obtain ⟨out, hout⟩ : ∃ out, writeIncrementalOTAPackage plainRecovery.toTools DictOrder.insertion
      smallOptions smallTarget smallSource (.ok false) = .ok out := ⟨_, rfl⟩
  exact ⟨out, hout, rerun_iff plainRecovery DictOrder.insertion smallOptions smallTarget
    smallSource updatePair_small out hout smallHolder holdsSource_small⟩

/-- Two builds whose `build.prop` is not worth a patch: cut off after the unneeded files
are gone, the update aborts when it is run again. -/
theorem small_rerun_aborts :
    UpdatePair plainRecovery smallTarget smallSource ∧
    HoldsSource smallOptions smallTarget smallSource smallHolder ∧
    ∃ out done rest d₁, writeIncrementalOTAPackage plainRecovery.toTools DictOrder.insertion
        smallOptions smallTarget smallSource (.ok false) = .ok out ∧
      out.script = done ++ rest ∧ runScript plainRecovery out.package smallHolder done = some d₁ ∧
      runScript plainRecovery out.package d₁ out.script = none := by
  obtain ⟨out, hout⟩ : ∃ out, writeIncrementalOTAPackage plainRecovery.toTools DictOrder.insertion
      smallOptions smallTarget smallSource (.ok false) = .ok out := ⟨_, rfl⟩
  obtain ⟨E, hscript, hpackage⟩ := exists_emitted hout
  -- a patch as long as the file is over the threshold
  have hwhole : BuildPropSentWhole plainRecovery.toTools smallOptions smallTarget smallSource :=
    ⟨[116], [115], rfl, rfl, .inr ⟨by decide, by norm_num [SendWhole, plainRecovery, smallOptions]⟩⟩
  obtain ⟨rest, d₁, hsplit, hdone, habort⟩ :=
    E.rerun_aborts updatePair_small holdsSource_small hwhole
  refine ⟨updatePair_small, holdsSource_small, out, E.removed, rest, d₁, hout, ?_⟩
  rw [hscript, hpackage]
  exact ⟨hsplit, hdone, habort⟩

end OdroidU2.Ota
