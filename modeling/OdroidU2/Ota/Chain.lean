import Mathlib
import OdroidU2.Ota.FullAgrees
import OdroidU2.Ota.Rerun
import OdroidU2.Ota.UpdatedTree

/-!
# Chains of Updates

Each incremental package takes the build that the one before it has made.  What a package leaves
is held to the same standard as what it asks for, so a chain of packages ends in its last build,
whatever the builds in between and however often a device was cut off on the way.

- `Emitted.exists_attempts` — interrupted attempts do not change what a package makes
- `exists_run_holds` — one package: from a device that holds the source build to one that holds
  the target build
- `chain_makes_last` — any number of them
-/

namespace OdroidU2.Ota

open OdroidU2.Foundations FileTree Pointwise

/-! ## §1 Interrupted Attempts -/

namespace Emitted

variable {rec : Recovery} {order : DictOrder} {opts : Options} {target source : Build}
variable (E : Emitted rec.toTools order opts target source)

/-- What every attempt keeps: each path stays in its set of values, and the boot partition holds
one of the two images. -/
structure Attempted (target source : Build) (N : Path → Place → Prop) (d e : Device) : Prop where
  sound : SoundTree (DirIn target source) e.fs
  values : ∀ p, N p (e.fs p)
  boot : e.boot = source.boot ∨ e.boot = target.boot
  device : e.productDevice = d.productDevice
  cache : e.cacheSpace = d.cacheSpace

section Attempts

variable {E}
variable (hpair : UpdatePair rec target source) {d : Device}
variable (hd : HoldsSource opts target source d)
variable {N : Path → Place → Prop} {final : DeviceTree}
variable (hsettles : ∀ p, E.Settles p (N p) (final p))
include hpair hd hsettles

/-- A whole run ends the same after any attempts. -/
theorem Attempted.run {e : Device} (he : Attempted target source N d e) :
    runScript rec E.package e E.script = some { d with fs := final, boot := target.boot } := by
  rw [runScript_eq_some_iff]
  refine ⟨fun c hc => ?_, ?_, E.runBoot_script hpair he.boot, he.device.symm, he.cache.symm⟩
  · -- the checks that do not look at files pass again
    have hallows := E.allows hpair hd hc
    cases c with
    | assertDevice device => exact he.device.trans hallows
    | cacheFreeSpaceCheck amount => exact hallows.trans he.cache.ge
    | _ => trivial
  · exact (run_of_follow (fun c hc => E.actsAs hpair hc) e.fs final he.sound
      fun p => (hsettles p).ends _ (he.values p)).1

/-- One more attempt. -/
theorem Attempted.cut {e : Device} (he : Attempted target source N d e)
    (k : ℕ) : ∃ e', runScript rec E.package e (E.script.take k) = some e' ∧
      Attempted target source N d e' := by
  have hwhole := he.run hpair hd hsettles
  rw [← List.take_append_drop k E.script, runScript, List.foldlM_append] at hwhole
  obtain ⟨e', hrun, -⟩ := Option.bind_eq_some_iff.mp hwhole
  have htake : ∀ c ∈ E.script.take k, c ∈ E.script := fun c hc => List.mem_of_mem_take hc
  -- the part of the script that is run gets through at every path, since the whole does
  have hmid : ∀ p, ∃ n, follow (act rec E.package) p (e.fs p) (E.script.take k) = some n := by
    intro p
    have hends := (hsettles p).ends _ (he.values p)
    rw [← List.take_append_drop k E.script, follow_append] at hends
    obtain ⟨n, hn, -⟩ := Option.bind_eq_some_iff.mp hends
    exact ⟨n, hn⟩
  choose mid hmid using hmid
  obtain ⟨htree, hsound⟩ := run_of_follow (fun c hc => E.actsAs hpair (htake c hc)) e.fs mid
    he.sound hmid
  obtain ⟨-, htree', hboot, hdevice, hcache⟩ := (runScript_eq_some_iff rec E.package).mp hrun
  have hfs : e'.fs = mid := Option.some.inj (htree'.symm.trans htree)
  refine ⟨e', hrun, hfs ▸ hsound, fun p => ?_, E.runBoot_mem hpair he.boot htake hboot,
    hdevice.trans he.device, hcache.trans he.cache⟩
  rw [hfs]
  exact follow_mem (act rec E.package) p
    (fun c hc n n' hn hact => (hsettles p).kept c (htake c hc) n n' hn hact) (he.values p) (hmid p)

end Attempts

/-- **Attempts**: however often the script is cut off, and wherever, the run that is not cut off
ends as if it had been the only one. -/
theorem exists_attempts (hpair : UpdatePair rec target source) {d : Device}
    (hd : HoldsSource opts target source d)
    (hwhole : ¬BuildPropSentWhole rec.toTools opts target source) (cuts : List ℕ) :
    ∃ e, cuts.foldlM (fun e k => runScript rec E.package e (E.script.take k)) d = some e ∧
      runScript rec E.package e E.script = runScript rec E.package d E.script := by
  choose N final hN hsettles hagrees using fun p => E.exists_settles hpair hd p fun _ => hwhole
  have hstart : Attempted target source N d d :=
    ⟨hd.sound hpair, hN, .inl hd.boot, rfl, rfl⟩
  have hall : ∀ e, Attempted target source N d e → ∃ e',
      cuts.foldlM (fun e k => runScript rec E.package e (E.script.take k)) e = some e' ∧
        Attempted target source N d e' := by
    -- attempt by attempt: each leaves a device that the next one can start from
    induction cuts with
    | nil => exact fun e he => ⟨e, rfl, he⟩
    | cons k cuts ih =>
      intro e he
      obtain ⟨e₁, hrun, he₁⟩ := he.cut hpair hd hsettles k
      obtain ⟨e', hrest, he'⟩ := ih e₁ he₁
      refine ⟨e', ?_, he'⟩
      rw [List.foldlM_cons, hrun]
      exact hrest
  obtain ⟨e, hrun, he⟩ := hall d hstart
  exact ⟨e, hrun, (he.run hpair hd hsettles).trans (hstart.run hpair hd hsettles).symm⟩

end Emitted

/-! ## §2 One Package -/

/-- A device that holds a build, in `/system` and in the boot partition. -/
structure HasBuild (build : Build) (d : Device) : Prop where
  tree : HoldsBuild build d.fs
  boot : d.boot = build.boot

/-- An update: the build to make, the options the package is built with, and after how many
commands the attempts before the last one are cut off. -/
structure Update where
  order : DictOrder
  opts : Options
  target : Build
  cuts : List ℕ

/-- Build the package of an update, and run its script until it comes to its end. -/
def Update.install (rec : Recovery) (source : Build) (d : Device) (u : Update) : Option Device :=
  match writeIncrementalOTAPackage rec.toTools u.order u.opts u.target source (.ok false) with
  | .ok out =>
    (u.cuts.foldlM (fun d k => runScript rec out.package d (out.script.take k)) d).bind
      fun d => runScript rec out.package d out.script
  | .error _ => none

/-- An update that can be built, that is for the device, that gives up no directory, and that is
cut off only if its `build.prop` is not sent whole. -/
structure Update.Fits (rec : Recovery) (source : Build) (d : Device) (u : Update) : Prop where
  pair : UpdatePair rec u.target source
  made : ∃ out, writeIncrementalOTAPackage rec.toTools u.order u.opts u.target source
    (.ok false) = .ok out
  dirs : ∀ q, imageAt source.system q = some (.dir ()) → imageAt u.target.system q ≠ none
  device : u.opts.overrideDevice.or (u.target.buildProp "ro.product.device") =
    some d.productDevice
  cache : ∀ p data, imageAt source.system p = some (.file data ()) → data.length ≤ d.cacheSpace
  cuts : u.cuts ≠ [] → ¬BuildPropSentWhole rec.toTools u.opts u.target source

theorem HasBuild.source {rec : Recovery} {source : Build} {d : Device} {u : Update}
    (hd : HasBuild source d) (hu : u.Fits rec source d) : HoldsSource u.opts u.target source d where
  tree := hd.tree.tree
  root := hd.tree.root
  system := hd.tree.system
  boot := hd.boot
  device := hu.device
  cache := hu.cache

/-- What an update makes, when no directory of the source build is left over. -/
structure MakesExactly (build : Build) (d : Device) : Prop where
  system : ∀ q, q ≠ ["build.prop"] → d.fs ("system" :: q) = builtPlace build q
  buildProp : ∃ data, imageAt build.system ["build.prop"] = some (.file data ()) ∧
    d.fs ["system", "build.prop"] = some (.file data ⟨0, 0, 0o644⟩)

section Step

variable {rec : Recovery} {source : Build} {d : Device} {u : Update}

/-- **The step lemma**: the target build is held as the source build was, and for the same device;
and its permissions are those of the listing. -/
theorem exists_run_holds (hd : HasBuild source d) (hu : u.Fits rec source d) :
    ∃ d', u.install rec source d = some d' ∧ HasBuild u.target d' ∧
      d'.productDevice = d.productDevice ∧ d'.cacheSpace = d.cacheSpace ∧
      ((∀ line ∈ u.target.metadata, 0 ≤ line.perm.uid ∧ 0 ≤ line.perm.gid) →
        MakesExactly u.target d') := by
  have hsource := hd.source hu
  obtain ⟨out, hout⟩ := hu.made
  obtain ⟨E, hscript, hpackage⟩ := exists_emitted hout
  obtain ⟨d', hrun, hfinal⟩ := E.exists_run hu.pair hsource
  -- nothing is where the target build has nothing
  have hnone (q : Path) (hq : builtNode u.target q = none) : d'.fs ("system" :: q) = none := by
    rcases E.leftover hu.pair hsource hq (hfinal ("system" :: q)).1 ((hfinal ("system" :: q)).2)
      with h | ⟨perm, -, hdir⟩
    · exact h
    · have hnil : q ≠ [] := by
        rintro rfl
        cases hq
      rw [builtNode, if_neg hnil] at hq
      exact absurd hq (hu.dirs q hdir)
  have hcontents (q : Path) : (d'.fs ("system" :: q)).map Node.contents = builtNode u.target q := by
    cases hq : builtNode u.target q with
    | none => rw [hnone q hq, Option.map_none]
    | some m =>
      exact E.contents_final hu.pair hsource hq (hfinal ("system" :: q)).1
        ((hfinal ("system" :: q)).2)
  -- what the run leaves is a tree again, so it can be the source of the next update
  have htree : HoldsBuild u.target d'.fs := by
    obtain ⟨d₁, hrun₁, hsound, -⟩ :=
      E.exists_run_prefix hu.pair hsource (List.append_nil E.script).symm
    obtain rfl := Option.some.inj (hrun.symm.trans hrun₁)
    refine ⟨hsound.tree, .inr ?_, fun p hp => ?_⟩
    · have hroot := hcontents []
      rw [builtNode, if_pos rfl, Option.map_eq_some_iff] at hroot
      obtain ⟨n, hn, hdir⟩ := hroot
      rw [hn, Option.any_some, ← n.isDir_contents, hdir]
      rfl
    · rw [hcontents p, builtNode, if_neg hp]
  have hparts := (runScript_eq_some_iff rec E.package).mp hrun
  refine ⟨d', ?_, ⟨htree, ?_⟩, hparts.2.2.2.1, hparts.2.2.2.2, fun hpos => ?_⟩
  · rw [Update.install, hout]
    dsimp only
    rw [hscript, hpackage]
    -- attempts that were cut off come to the same as the one that was not
    by_cases hcuts : u.cuts = []
    · rw [hcuts]
      exact hrun
    · obtain ⟨e, hattempts, hsame⟩ := E.exists_attempts hu.pair hsource (hu.cuts hcuts) u.cuts
      rw [hattempts, Option.bind_some, hsame, hrun]
  · exact Option.some.inj (hparts.2.2.1.symm.trans (E.runBoot_script hu.pair (.inl hd.boot)))
  · obtain ⟨d₂, hrun₂, hnodes, hprop, -⟩ := E.exists_run_perms hu.pair hsource hpos
    obtain rfl := Option.some.inj (hrun.symm.trans hrun₂)
    refine ⟨fun q hne => ?_, hprop⟩
    cases hq : builtNode u.target q with
    | none => rw [hnone q hq, builtPlace, hq, Option.bind_none]
    | some m => exact hnodes q m hq hne

end Step

/-! ## §3 Chains -/

/-- Install one update after the other. -/
def installAll (rec : Recovery) (source : Build) (d : Device) : List Update → Option Device
  | [] => some d
  | u :: us => (u.install rec source d).bind fun d => installAll rec u.target d us

/-- Every update of a chain fits the device and the build before it. -/
def ChainFits (rec : Recovery) (d : Device) (source : Build) : List Update → Prop
  | [] => True
  | u :: us => u.Fits rec source d ∧ ChainFits rec d u.target us

/-- Whether a chain fits depends on two properties of the device. -/
theorem ChainFits.of_device {rec : Recovery} {d d' : Device} {source : Build} {us : List Update}
    (h : ChainFits rec d source us) (hdevice : d'.productDevice = d.productDevice)
    (hcache : d'.cacheSpace = d.cacheSpace) : ChainFits rec d' source us := by
  -- an update reads the device's name and the room of its cache, and changes neither
  induction us generalizing source with
  | nil => trivial
  | cons u us ih =>
    obtain ⟨hu, hrest⟩ := h
    refine ⟨⟨hu.pair, hu.made, hu.dirs, ?_, ?_, hu.cuts⟩, ih hrest⟩
    · rw [hdevice]
      exact hu.device
    · rw [hcache]
      exact hu.cache

/-- **Chains of updates**: a chain of incremental packages, each from the build before it and run
again whenever it is cut off, does not abort on a device that holds the first build.  In the end
`/system` is the last build, with the permissions of its listing, and the boot partition is its
image: neither the builds in between nor the interruptions leave a trace. -/
theorem chain_makes_last {rec : Recovery} {source : Build} {d : Device} (us : List Update)
    (u : Update) (hd : HasBuild source d) (hfits : ChainFits rec d source (us ++ [u]))
    (hpos : ∀ line ∈ u.target.metadata, 0 ≤ line.perm.uid ∧ 0 ≤ line.perm.gid) :
    ∃ d', installAll rec source d (us ++ [u]) = some d' ∧ MakesExactly u.target d' ∧
      d'.boot = u.target.boot := by
  -- update by update: the build one leaves is the source of the next
  induction us generalizing source d with
  | nil =>
    obtain ⟨d', hinstall, hholds, -, -, hmakes⟩ := exists_run_holds hd hfits.1
    refine ⟨d', ?_, hmakes hpos, hholds.boot⟩
    rw [List.nil_append, installAll, hinstall]
    rfl
  | cons first us ih =>
    obtain ⟨hfirst, hrest⟩ := hfits
    obtain ⟨d₁, hinstall, hholds, hdevice, hcache, -⟩ := exists_run_holds hd hfirst
    obtain ⟨d', hrun, hmakes⟩ := ih hholds (hrest.of_device hdevice hcache)
    refine ⟨d', ?_, hmakes⟩
    rw [List.cons_append, installAll, hinstall]
    exact hrun

/-- The update of the small device. -/
def smallUpdate : Update := ⟨.insertion, smallOptions, smallTarget, []⟩

/-- The same build once more, after two attempts that are cut off. -/
def smallRepeat : Update := ⟨.insertion, smallOptions, smallTarget, [7, 3]⟩

theorem chain_makes_last_small : ∃ d',
    installAll plainRecovery smallSource smallHolder
      ([smallUpdate] ++ [smallRepeat]) = some d' ∧ MakesExactly smallTarget d' ∧
        d'.boot = smallTarget.boot := by
  have hholds : HasBuild smallSource smallHolder :=
    ⟨⟨holdsSource_small.tree, holdsSource_small.root, holdsSource_small.system⟩, rfl⟩
  -- the second update is from the build to itself
  have hagain : UpdatePair plainRecovery smallTarget smallTarget := by
    refine ⟨by decide, by decide, fun p n m hn hm => ?_, ⟨[116], rfl, rfl⟩, ⟨[116], rfl, rfl⟩,
      rfl, rfl⟩
    rw [Option.some.inj (hn.symm.trans hm)]
  have hdirs : ∀ q, imageAt smallSource.system q = some (.dir ()) →
      imageAt smallTarget.system q ≠ none := by
    intro q hq
    obtain ⟨e, he, rfl, hnode⟩ := (imageAt_eq_some_iff (by decide)).mp hq
    have hall : ∀ e ∈ smallSource.system, imageAt smallTarget.system e.path ≠ none := by decide
    exact hall e he
  have hcache : ∀ p data, imageAt smallTarget.system p = some (.file data ()) →
      data.length ≤ 1 := by
    intro p data hp
    have hspace : ∀ e ∈ smallTarget.system, ∀ data, e.node = .file data () → data.length ≤ 1 := by
      simp [smallTarget, ZipEntry.node]
    obtain ⟨e, he, -, hnode⟩ := (imageAt_eq_some_iff (by decide)).mp hp
    exact hspace e he data hnode
  refine chain_makes_last [smallUpdate] smallRepeat hholds
    ⟨⟨updatePair_small, ⟨_, rfl⟩, hdirs, rfl, holdsSource_small.cache, fun h => absurd rfl h⟩,
      ⟨hagain, ⟨_, rfl⟩, fun q hq => Option.ne_none_iff_exists'.mpr ⟨_, hq⟩, rfl, hcache,
        fun _ => ?_⟩, trivial⟩ (by decide)
  -- the same `build.prop` is not sent
  rintro ⟨tf, sf, ht, hs, hwhole⟩
  cases ht
  cases hs
  rcases hwhole with h | ⟨h, -⟩
  · cases h
  · exact h rfl

end OdroidU2.Ota
