import Mathlib
import OdroidU2.Ota.FullCorrect

/-!
# Full and Incremental Packages Agree

An incremental package changes the source build into the target build; a full package makes
the target build of nothing.  Below `/system` the two end in the same nodes, permissions
included, wherever the target build has one.

Main result:

- `full_and_incremental_agree`
-/

namespace OdroidU2.Ota

open OdroidU2.Foundations FileTree Pointwise

/-! ## §1 Kinds -/

/-- What kind of node there is. -/
def kindAt (n : Place) : Option (Bool × Bool) := n.map fun n => (n.isDir, n.isLink)

theorem kindAt_of_contents {n m : Place} (h : n.map Node.contents = m.map Node.contents) :
    kindAt n = kindAt m := by
  have hkind (n : Place) : kindAt n = (n.map Node.contents).map fun n => (n.isDir, n.isLink) := by
    rw [kindAt, Option.map_map]
    congr 1
    funext n
    rw [Function.comp_apply, n.isDir_contents, n.isLink_contents]
  rw [hkind, hkind, h]

namespace Emitted

variable {rec : Recovery} {order : DictOrder} {opts : Options} {target source : Build}
variable (E : Emitted rec.toTools order opts target source)

/-! ## §2 The Permissions of an Incremental Package -/

/-- They come from a tree of what is built, as in a full package. -/
theorem exists_tree (hz : WellFormed target.system) :
    ∃ tree, TreeOf target tree ∧
      E.permissions = recurse (bestSubtree order) tree Subtree.unset := by
  obtain ⟨items₀, hitems₀, h⟩ := bind_eq_ok_iff.mp E.permissions_eq
  -- the steps of `WriteIncrementalOTAPackage` that lead to the permissions
  cases hitems₀
  obtain ⟨⟨links, items₁⟩, hcopy, h⟩ := bind_eq_ok_iff.mp h
  obtain ⟨items₂, hitems, hcopy⟩ := bind_eq_ok_iff.mp hcopy
  cases hcopy
  obtain ⟨script, hset, h⟩ := bind_eq_ok_iff.mp h
  obtain ⟨hscript, -⟩ := Prod.mk.inj (Except.ok.inj h)
  rw [← hscript]
  exact exists_treeOf hz hitems hset

variable (hpair : UpdatePair rec target source) {d : Device}
variable (hd : HoldsSource opts target source d)
include hpair

/-- The commands from the permissions on keep the kind of every node. -/
theorem kind_of_rest {p : Path} {n n' : Place}
    (hrun : follow (act rec E.package) p n (E.permissions ++ finishCmds rec.toTools E.plan) =
      some n') : kindAt n' = kindAt n := by
  refine follow_mem (act rec E.package) p (N := fun m => kindAt m = kindAt n) ?_ rfl hrun
  intro c hc m m' hm hact
  have hpermission {q : Path} (hq : c.permPath? = some q) : kindAt m' = kindAt n := by
    rw [(act_permission_some rec _ hq hact).1, ← hm]
    exact kindAt_of_contents (contents_setAt _ _)
  rcases List.mem_append.mp hc with hc | hc
  · obtain ⟨q, hq, -⟩ := permPath?_permissionCmds hpair.target_wf E.permissions_eq c hc
    exact hpermission hq
  · rcases List.mem_cons.mp hc with rfl | hc
    · exact Option.some.inj hact ▸ hm
    · rcases List.mem_append.mp hc with hc | hc
      · -- a patched file is a file
        obtain ⟨e, he, rfl⟩ := List.mem_map.mp hc
        rcases E.act_applyPatch_some hpair (List.mem_filter.mp he).1 hact with
          rfl | ⟨-, data, perm, rfl, rfl⟩
        · exact hm
        · exact hm
      · obtain rfl := List.mem_singleton.mp hc
        exact hpermission rfl

include hd

/-- A directory of the target build is there before permissions are set. -/
theorem follow_changes_dir {q : Path} (hq : builtNode target q = some (.dir ())) :
    ∃ perm, follow (act rec E.package) ("system" :: q) (d.fs ("system" :: q)) E.changes =
      some (some (.dir perm)) := by
  have hdir : DirIn target source ("system" :: q) := by
    rw [dirIn_cons]
    -- `/system` itself is there from the start
    by_cases hnil : q = []
    · exact .inl hnil
    · rw [builtNode, if_neg hnil] at hq
      exact .inr (.inl hq)
  have hthere {perm : Perm} (hfs : d.fs ("system" :: q) = some (.dir perm)) :
      ∃ perm, follow (act rec E.package) ("system" :: q) (d.fs ("system" :: q)) E.changes =
        some (some (.dir perm)) := by
    rw [hfs]
    exact ⟨perm, changes_dir hpair E hdir (.inr ⟨perm, rfl⟩) (E.follow_unpack_dir hpair hdir perm)⟩
  by_cases hnil : q = []
  · subst hnil
    have hroot := hd.root.resolve_left (List.cons_ne_nil _ _)
    cases hfs : d.fs ["system"] with
    | none =>
      rw [hfs] at hroot
      cases hroot
    | some n =>
      cases n with
      | dir perm => exact hfs ▸ hthere hfs
      | file data perm =>
        rw [hfs] at hroot
        cases hroot
      | link dest =>
        rw [hfs] at hroot
        cases hroot
  · have hsystem := hd.system q hnil
    rw [builtNode, if_neg hnil] at hq
    cases hs : imageAt source.system q with
    | none =>
      -- a directory of the target build alone is sent
      rw [hs] at hsystem
      have hmem : (FileName.dir ("system" :: q), ([] : Bytes)) ∈ E.plan.verbatimTargets := by
        refine (mem_verbatimTargets E.makePlan_eq).mpr
          ⟨(get?_loadSystemFiles_dir hpair.target_wf).mpr ⟨hq, rfl⟩, ?_⟩
        cases hget : (loadSystemFiles source.system).get? (.dir ("system" :: q)) with
        | none => trivial
        | some data =>
          have himage := ((get?_loadSystemFiles_dir hpair.source_wf).mp hget).1
          rw [hs] at himage
          cases himage
      rw [Option.map_eq_none_iff.mp hsystem]
      exact ⟨_, changes_dir hpair E hdir (.inl rfl) (E.follow_unpack_newDir hpair hdir hmem)⟩
    | some m =>
      rw [hs] at hsystem
      obtain ⟨n, hfs, hn⟩ := Option.map_eq_some_iff.mp hsystem
      have hm := hpair.kinds q _ m hq hs
      rw [← hn, n.isDir_contents] at hm
      cases n with
      | dir perm => exact hthere hfs
      | file data perm => cases hm
      | link dest => cases hm

/-! ## §3 The Run of an Incremental Package -/

/-- Where the target build has nothing, at most a directory of the source build is left. -/
theorem leftover {q : Path} {n : Place} (hq : builtNode target q = none)
    (hrun : follow (act rec E.package) ("system" :: q) (d.fs ("system" :: q)) E.script = some n)
    (hagrees : Agrees target ("system" :: q) n) :
    n = none ∨ ∃ perm, n = some (.dir perm) ∧ imageAt source.system q = some (.dir ()) := by
  have hnil : q ≠ [] := by
    rintro rfl
    cases hq
  rw [builtNode, if_neg hnil] at hq
  have hleaf := hagrees q rfl
  rw [hq] at hleaf
  -- all that can be left where the build has nothing is a directory
  cases n with
  | none => exact .inl rfl
  | some n =>
    cases n with
    | file data perm => cases hleaf
    | link dest => cases hleaf
    | dir perm =>
      refine .inr ⟨perm, rfl, ?_⟩
      by_contra hs
      have hdir : ¬DirIn target source ("system" :: q) := by
        rw [dirIn_cons, hq]
        rintro (h | h | h)
        · exact hnil h
        · cases h
        · exact hs h
      -- what is no directory at first does not become one
      have hstart : (d.fs ("system" :: q)).any Node.isDir = false := by
        have hsystem := hd.system q hnil
        cases hfs : d.fs ("system" :: q) with
        | none => rfl
        | some m =>
          rw [hfs] at hsystem
          cases m with
          | dir perm => exact absurd hsystem.symm hs
          | file data perm => rfl
          | link dest => rfl
      have hkept := kept_leaf E hdir
      have hend := follow_mem (act rec E.package) ("system" :: q)
        (N := fun n => n.any Node.isDir = false)
        (fun c hc n n' hn hact => hkept.act hpair ⟨q, rfl⟩ hc hn hact) hstart hrun
      cases hend

/-- Where the target build has a node, the script ends in it. -/
theorem contents_final {q : Path} {m : Node String Bytes Unit} {n : Place}
    (hm : builtNode target q = some m)
    (hrun : follow (act rec E.package) ("system" :: q) (d.fs ("system" :: q)) E.script = some n)
    (hagrees : Agrees target ("system" :: q) n) : n.map Node.contents = some m := by
  -- a file or a link is what the script agrees with the build on
  have hleaf {k : Node String Bytes Unit} (hk : k.isDir = false) (hmk : m = k) :
      n.map Node.contents = some m := by
    have hnil : q ≠ [] := by
      rintro rfl
      cases hm
      subst hmk
      cases hk
    have hagrees := hagrees q rfl
    rw [builtNode, if_neg hnil] at hm
    rw [hm, hmk, leafOf, leafOf, Option.filter_some, if_pos (by simp [hk])] at hagrees
    rw [hmk]
    exact (Option.filter_eq_some_iff.mp hagrees).1
  cases m with
  | file data perm => exact hleaf rfl rfl
  | link dest => exact hleaf rfl rfl
  | dir perm =>
    -- a directory is there once the changes are made, and stays one
    obtain ⟨perm', hchanges⟩ := E.follow_changes_dir hpair hd hm
    have hsplit : E.script = E.changes ++ (E.permissions ++ finishCmds rec.toTools E.plan) := by
      rw [script, List.append_assoc]
    rw [hsplit, follow_append, hchanges, Option.bind_some] at hrun
    have hkind := E.kind_of_rest hpair hrun
    obtain ⟨k, rfl, hk⟩ := Option.map_eq_some_iff.mp hkind
    cases k with
    | dir perm => rfl
    | file data perm => cases hk
    | link dest => cases hk

/-- **The run lemma**: the script ends in the target build, with the permissions of the
listing; but `build.prop` has those of the last command. -/
theorem exists_run_perms (hpos : ∀ line ∈ target.metadata, 0 ≤ line.perm.uid ∧ 0 ≤ line.perm.gid) :
    ∃ d', runScript rec E.package d E.script = some d' ∧
      (∀ q m, builtNode target q = some m → q ≠ ["build.prop"] →
        d'.fs ("system" :: q) = builtPlace target q) ∧
      (∃ data, imageAt target.system ["build.prop"] = some (.file data ()) ∧
        d'.fs ["system", "build.prop"] = some (.file data ⟨0, 0, 0o644⟩)) ∧
      ∀ q, builtNode target q = none → d'.fs ("system" :: q) = none ∨
        ∃ perm, d'.fs ("system" :: q) = some (.dir perm) ∧
          imageAt source.system q = some (.dir ()) := by
  obtain ⟨d', hrun, hfinal⟩ := E.exists_run hpair hd
  have hsplit : E.script = E.changes ++ (E.permissions ++ finishCmds rec.toTools E.plan) := by
    rw [script, List.append_assoc]
  obtain ⟨d₁, -, hsound, hmid⟩ := E.exists_run_prefix hpair hd hsplit
  -- from the middle to the end, at each path
  have hrest (p : Path) : follow (act rec E.package) p (d₁.fs p)
      (E.permissions ++ finishCmds rec.toTools E.plan) = some (d'.fs p) := by
    have hwhole := (hfinal p).1
    rw [hsplit, follow_append, (hmid p).1, Option.bind_some] at hwhole
    exact hwhole
  obtain ⟨tree, htree, hpermissions⟩ := E.exists_tree hpair.target_wf
  have hhas : HasTree d₁.fs tree := by
    intro j hj
    obtain ⟨q, m, hname, hm, hlink, hdir, -⟩ := htree.sound j hj
    -- every item is there, of its kind
    have hkind : kindAt (d₁.fs ("system" :: q)) = some (m.isDir, false) := by
      cases m with
      | link dest => cases hlink
      | dir perm =>
        obtain ⟨perm', hperm⟩ := E.follow_changes_dir hpair hd hm
        rw [(hmid ("system" :: q)).1] at hperm
        rw [Option.some.inj hperm]
        rfl
      | file data perm =>
        rw [← E.kind_of_rest hpair (hrest ("system" :: q))]
        have hagrees := (hfinal ("system" :: q)).2 q rfl
        have hnil : q ≠ [] := by
          rintro rfl
          cases hm
        rw [builtNode, if_neg hnil] at hm
        rw [hm] at hagrees
        cases hfs : d'.fs ("system" :: q) with
        | none =>
          rw [hfs] at hagrees
          cases hagrees
        | some n =>
          rw [hfs] at hagrees
          cases n with
          | file data perm => rfl
          | dir perm => cases hagrees
          | link dest => cases hagrees
    obtain ⟨n, hn, hkind⟩ := Option.map_eq_some_iff.mp hkind
    obtain ⟨hndir, hnlink⟩ := Prod.mk.inj hkind
    exact ⟨n, by rw [hname, hn], hndir.trans hdir.symm, hnlink⟩
  obtain ⟨fs₂, hrun₂, hsame, -, hperm⟩ := setsOwn rec E.package (bestSubtree order) tree
    htree.wellNamed (fun j hj => by
      obtain ⟨q, m, -, -, -, -, hlisted⟩ := htree.sound j hj
      exact listedPerm_nonneg hpos hlisted) d₁.fs Subtree.unset hsound.tree hhas (.inl rfl)
  -- the end of the script starts from there
  have hfinish (p : Path) : follow (act rec E.package) p (fs₂ p)
      (finishCmds rec.toTools E.plan) = some (d'.fs p) := by
    have hparts : ∀ p, ∃ n, follow (act rec E.package) p (d₁.fs p) E.permissions = some n ∧
        follow (act rec E.package) p n (finishCmds rec.toTools E.plan) = some (d'.fs p) := by
      intro p
      have hrest := hrest p
      rw [follow_append] at hrest
      exact Option.bind_eq_some_iff.mp hrest
    choose mid hmid₂ hend using hparts
    have hmem : ∀ c ∈ E.permissions, c ∈ E.script := by
      intro c hc
      rw [hsplit]
      exact List.mem_append_right _ (List.mem_append_left _ hc)
    have hrunmid : runTree rec E.package d₁.fs E.permissions = some mid :=
      (run_of_follow (fun c hc => E.actsAs hpair (hmem c hc)) d₁.fs mid hsound hmid₂).1
    rw [hpermissions, hrun₂] at hrunmid
    rw [Option.some.inj hrunmid]
    exact hend p
  refine ⟨d', hrun, fun q m hm hprop => ?_, ?_, fun q hq => ?_⟩
  · have hne : "system" :: q ≠ ["system", "build.prop"] := fun h =>
      hprop ((List.cons_inj_right "system").mp h)
    have hlast := hfinish ("system" :: q)
    rw [E.follow_finish_of_ne hne] at hlast
    have hfs : fs₂ ("system" :: q) = d'.fs ("system" :: q) := Option.some.inj hlast
    rw [builtPlace, hm, Option.bind_some]
    refine eq_withListed (E.contents_final hpair hd hm (hfinal ("system" :: q)).1
      ((hfinal ("system" :: q)).2)) fun hlink => ?_
    obtain ⟨j, hj, hname⟩ := htree.complete q m hm hlink
    obtain ⟨-, -, -, -, -, -, hlisted⟩ := htree.sound j hj
    have hset := hperm j hj
    rw [hname] at hlisted hset
    rw [hlisted, ← hfs]
    exact ⟨hset, Option.some_ne_none _⟩
  · obtain ⟨data, himage, -⟩ := hpair.target_buildProp
    refine ⟨data, himage, ?_⟩
    have hbuilt : builtNode target ["build.prop"] = some (.file data ()) := himage
    have hcontents := E.contents_final hpair hd hbuilt (hfinal ["system", "build.prop"]).1
      (hfinal ["system", "build.prop"]).2
    -- the last command sets the permissions
    have hlast := hfinish ["system", "build.prop"]
    rw [finishCmds, follow_cons, act_print, Option.bind_some, follow_append] at hlast
    obtain ⟨n, -, hlast⟩ := Option.bind_eq_some_iff.mp hlast
    obtain ⟨n', hact, hend⟩ := Option.bind_eq_some_iff.mp hlast
    obtain rfl : n' = d'.fs ["system", "build.prop"] := Option.some.inj hend
    rw [(act_permission_some rec _ rfl hact).1] at hcontents ⊢
    have hat : (Cmd.setPermissions ["system", "build.prop"] 0 0 0o644).permAt?
        ["system", "build.prop"] = some (⟨0, 0, 0o644⟩, ⟨0, 0, 0o644⟩) := rfl
    rw [hat, setAt] at hcontents ⊢
    cases n with
    | none => cases hcontents
    | some n =>
      cases n with
      | file data' perm =>
        cases hcontents
        rfl
      | dir perm => cases hcontents
      | link dest => cases hcontents
  · exact E.leftover hpair hd hq (hfinal ("system" :: q)).1 (hfinal ("system" :: q)).2

end Emitted

/-! ## §4 The Two Packages -/

/-- **Full and incremental packages agree**: install the incremental package on a device that
holds the source build, and the full package on any device at all.  Wherever the target build
has a node, both devices end with the same node, permissions included, but for `build.prop`,
which the incremental package gives to root with mode `0644`.  Where it has none the full
package leaves nothing, and the incremental one at most a directory of the source build. -/
theorem full_and_incremental_agree (inst : Installer) (order order' : DictOrder)
    (opts : FullOptions) (opts' : Options) (build : FullBuild) (source : Build)
    (hbuild : build.Sound inst) (hpair : UpdatePair inst.toRecovery build.toBuild source)
    (touched : Path → Prop) (hbackup : opts.backuptool = true → BackupSound inst touched)
    (full : FullOutput) (hfull : writeFullOTAPackage order opts build = .ok full)
    (incr : Output) (hincr : writeIncrementalOTAPackage inst.toTools order' opts' build.toBuild
      source (.ok false) = .ok incr)
    (e : FullDevice) (he : ReadyFor opts build e) (d : Device)
    (hd : HoldsSource opts' build.toBuild source d) :
    ∃ e' d', runFull inst full.package e full.script = some e' ∧
      runScript inst.toRecovery incr.package d incr.script = some d' ∧
      ∀ q, Spared opts touched ("system" :: q) →
        (builtNode build.toBuild q ≠ none → q ≠ ["build.prop"] →
          d'.fs ("system" :: q) = e'.fs ("system" :: q)) ∧
        (q = ["build.prop"] → ∃ data perm, e'.fs ("system" :: q) = some (.file data perm) ∧
          d'.fs ("system" :: q) = some (.file data ⟨0, 0, 0o644⟩)) ∧
        (builtNode build.toBuild q = none → e'.fs ("system" :: q) = none ∧
          (d'.fs ("system" :: q) = none ∨ ∃ perm, d'.fs ("system" :: q) = some (.dir perm) ∧
            imageAt source.system q = some (.dir ()))) := by
  obtain ⟨F, hscript, hpackage⟩ := exists_fullEmitted hfull
  obtain ⟨⟨e', hrun, hmakes⟩, -⟩ := F.run_script hbuild hbackup he
  rw [← hscript, ← hpackage] at hrun
  obtain ⟨E, hscript', hpackage'⟩ := exists_emitted hincr
  obtain ⟨d', hrun', hnodes, ⟨data, himage, hprop⟩, hnone⟩ :=
    E.exists_run_perms hpair hd hbuild.owners
  rw [← hscript', ← hpackage'] at hrun'
  refine ⟨e', d', hrun, hrun', fun q hq => ⟨fun hsome hne => ?_, ?_, fun hq' => ?_⟩⟩
  · -- where the build has a node, both have it with its permissions
    obtain ⟨m, hm⟩ := Option.ne_none_iff_exists'.mp hsome
    rw [hmakes.system q hq, hnodes q m hm hne]
  · rintro rfl
    -- the generator of the full package found permissions for it
    obtain ⟨tree, htree, -⟩ := exists_treeOf hbuild.system F.items_eq F.permissions_eq
    have hbuilt : builtNode build.toBuild ["build.prop"] = some (.file data ()) := himage
    obtain ⟨j, hj, hname⟩ := htree.complete _ _ hbuilt rfl
    obtain ⟨-, -, -, -, -, -, hlisted⟩ := htree.sound j hj
    rw [hname] at hlisted
    refine ⟨data, j.perm, ?_, hprop⟩
    rw [hmakes.system _ hq, builtPlace, hbuilt, Option.bind_some, hlisted]
    rfl
  · -- where it has none, the full package leaves nothing
    refine ⟨?_, hnone q hq'⟩
    rw [hmakes.system q hq, builtPlace, hq']
    rfl

theorem full_and_incremental_agree_small : ∃ full incr e' d',
    writeFullOTAPackage .insertion fullOptions smallFullBuild = .ok full ∧
    writeIncrementalOTAPackage plainInstaller.toTools .insertion smallOptions
      smallFullBuild.toBuild smallSource (.ok false) = .ok incr ∧
    runFull plainInstaller full.package smallFullDevice full.script = some e' ∧
    runScript plainInstaller.toRecovery incr.package smallHolder incr.script = some d' ∧
    d'.fs ["system", "bin", "busybox"] = e'.fs ["system", "bin", "busybox"] := by
  obtain ⟨full, hfull⟩ : ∃ full, writeFullOTAPackage .insertion fullOptions smallFullBuild =
    .ok full := ⟨_, rfl⟩
  obtain ⟨incr, hincr⟩ : ∃ incr, writeIncrementalOTAPackage plainInstaller.toTools .insertion
    smallOptions smallFullBuild.toBuild smallSource (.ok false) = .ok incr := ⟨_, rfl⟩
  obtain ⟨e', d', hrun, hrun', hagree⟩ := full_and_incremental_agree plainInstaller .insertion
    .insertion fullOptions smallOptions smallFullBuild smallSource sound_smallFullBuild
    updatePair_small (fun _ => False) (fun _ => backupSound_plain) full hfull incr hincr
    smallFullDevice readyFor_small smallHolder holdsSource_small
  refine ⟨full, incr, e', d', hfull, hincr, hrun, hrun', ?_⟩
  exact (hagree ["bin", "busybox"] fun _ h => h).1 (by decide) (by decide)

end OdroidU2.Ota
