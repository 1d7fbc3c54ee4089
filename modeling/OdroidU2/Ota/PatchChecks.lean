import OdroidU2.Ota.IncrementalCorrect
import OdroidU2.Ota.IncrementalParts

/-!
# Checks Come Before Patches

An incremental script verifies everything it is going to patch before it changes anything:
checks and patches are appended by different loops, and `build.prop` is patched by a third
one, but every patch has its check, and no check comes after a change.

- `Checks` — a check of what a command patches, with the digests of the patch
- `patches_after_checks` — every patch follows its check, and every check precedes all changes
-/

namespace OdroidU2.Ota

open OdroidU2.Foundations

/-! ## §1 The Check of a Patch -/

/-- The digests that a check accepts: those it is given, and for a partition first the two
of its description. -/
def PatchTarget.accepted (sha1s : List Digest) : PatchTarget → List Digest
  | .file _ => sha1s
  | .partition _ _ _ sourceSha1 _ targetSha1 => targetSha1 :: sourceSha1 :: sha1s

/-- `d` checks what `c` patches: the same path, with the same target and source digest. -/
def Checks (d c : Cmd) : Prop :=
  ∃ target tgtSize tgtSha1 srcSha1 patch sha1s,
    c = .applyPatch target tgtSize tgtSha1 srcSha1 patch ∧ d = .patchCheck target sha1s ∧
      target.accepted sha1s = [tgtSha1, srcSha1]

namespace Parts

variable {tools : Tools} {order : DictOrder} {opts : Options} {target source : Build}
variable {updatingRecovery : Bool} (E : Parts tools order opts target source updatingRecovery)

theorem check_mem_verify {e : PatchEntry} (he : e ∈ E.plan.patchList) :
    patchCheckCmd tools e ∈ E.verify := by
  simp only [verify, verifyCmds, List.mem_append, List.mem_map]
  exact .inl (.inl (.inl (.inr ⟨e, he, rfl⟩)))

theorem checkBoot_mem_verify {b : BootUpdate} (hb : E.boot = some b) :
    Cmd.patchCheck (b.partition tools opts) [] ∈ E.verify := by
  simp [verify, verifyCmds, hb]

/-- The first part has a check for every patch of the second. -/
theorem exists_check {c : Cmd} (hc : c ∈ E.install) (hpatches : c.Patches) :
    ∃ d ∈ E.verify, Checks d c := by
  rcases E.patches_cases hc hpatches with ⟨e, he, rfl⟩ | ⟨b, hb, rfl⟩
  · exact ⟨_, E.check_mem_verify he, _, _, _, _, _, _, rfl, rfl, rfl⟩
  · -- the digests of the boot image are part of its description
    exact ⟨_, E.checkBoot_mem_verify hb, _, _, _, _, _, _, rfl, rfl, rfl⟩

end Parts

/-! ## §2 The Order of a Script -/

/-- **Nothing is patched unchecked**: for every pair of builds, all options and every
differ, whether or not the recovery image changes, every patch of an incremental script
comes after a check of the same path with the same digests, and every check comes before
the first command that changes the device. -/
theorem patches_after_checks (tools : Tools) (order : DictOrder) (opts : Options)
    (target source : Build) (updatingRecovery : Bool) (out : Output)
    (hout : writeIncrementalOTAPackage tools order opts target source (.ok updatingRecovery) =
      .ok out) :
    PrecededBy Cmd.Patches Checks out.script ∧
      NoneBefore Cmd.Changes Cmd.IsPatchCheck out.script := by
  obtain ⟨u, -, E, hscript, -⟩ := exists_parts hout
  rw [hscript]
  -- the first part has all the checks and changes nothing, the second has all the patches
  constructor
  · apply precededBy_append
    · rintro c hc ⟨_, _, _, _, _, rfl⟩
      exact E.looks_of_mem_verify hc trivial
    · exact fun c hc hpatches => E.exists_check hc hpatches
  · exact noneBefore_append (fun c hc => E.looks_of_mem_verify hc)
      fun c hc => E.not_isPatchCheck_of_mem_install hc

/-- A differ that needs no more than a byte. -/
def shortDiffer : Tools where
  sha1 := ⟨id, Function.injective_id⟩
  diff := { computePatch := fun _ _ _ => some [0], applyPatch := fun _ _ => none }

/-- A build with a program of forty bytes. -/
def programBuild (n : UInt8) : Build where
  system := [.dir ["bin"], .file ["bin", "sh"] (List.replicate 40 n),
    .file ["build.prop"] (List.replicate 40 n)]
  metadata := [⟨["system"], ⟨0, 0, 0o755⟩⟩, ⟨["system", "bin"], ⟨0, 2000, 0o755⟩⟩,
    ⟨["system", "bin", "sh"], ⟨0, 2000, 0o755⟩⟩, ⟨["system", "build.prop"], ⟨0, 0, 0o644⟩⟩]
  buildProp _ := some "odroidu2"
  boot := List.replicate 50 n

theorem patches_after_checks_program : ∃ out, writeIncrementalOTAPackage shortDiffer
      DictOrder.insertion smallOptions (programBuild 2) (programBuild 1) (.ok false) = .ok out ∧
    PrecededBy Cmd.Patches Checks out.script ∧
      NoneBefore Cmd.Changes Cmd.IsPatchCheck out.script := by
  obtain ⟨out, hout⟩ : ∃ out, writeIncrementalOTAPackage shortDiffer DictOrder.insertion
      smallOptions (programBuild 2) (programBuild 1) (.ok false) = .ok out := ⟨_, rfl⟩
  exact ⟨out, hout, patches_after_checks shortDiffer DictOrder.insertion smallOptions
    (programBuild 2) (programBuild 1) false out hout⟩

end OdroidU2.Ota
