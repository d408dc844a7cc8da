import HomeProvision.Proofs.Heeded
import HomeProvision.Proofs.Merged
import HomeProvision.Proofs.Undisturbed

/-!
# A clone is taken up again

A clone that the hook has given up leaves a part of a home. When it is made again, the destination
comes to show what one clone without a break would have made of it (`cloneTree_resumes`).

A file that was given up between two of its pieces stays as it is, though: its name is taken, and a
file that is there is never filled again. For this reason the law does not hold for every place where
the hook gets control (`cloneTree_truncates`).
-/

namespace HomeProvision.Program

open Machine

variable {α σ : Type} {halted world : Layer σ} {view : σ → Machine} {f g : Folder}

/-! ## What comes after a fault of the hook -/

theorem Closes.of_disturbed (keeps : world.KeepsTo (Disturbed fun _ => True) view) :
    world.Allows Closes := by
  intro c s
  cases c with
  | close number =>
    have step := keeps (.close number) s
    generalize world.reply (.close number) s = result at step
    obtain ⟨r, s'⟩ := result
    generalize view s' = m' at step
    cases step with
    | answered => exact changed_orderly (openFile_orderly.bind fun _ => .ok _)
    | failed _ exposed => exact absurd trivial exposed
    | foreign _ bad => cases bad
  | _ => trivial

/-- A clean-up changes no file. -/
theorem changesTree_of_cleansUp {c : Call} (cleansUp : c.cleansUp = true) :
    c.changesTree = false := by
  cases c <;> first | rfl | cases cleansUp

/-- What is there when the hook raises a fault is still there after the clean-up. -/
theorem sameTree_of_raised (keeps : world.KeepsTo (Disturbed fun _ => True) view) {q : Program α}
    {s : σ} {fault : Fault} {after : List Exchange}
    (left : q.trace world s = .raised fault :: after)
    (cleaned : ∀ x ∈ after, x.call.cleansUp = true) :
    (view (q.run world s).2).tree = (view s).tree ∧
      (view (q.run world s).2).current = (view s).current := by
  refine run_lasts (fun s' => (view s').tree = (view s).tree ∧
    (view s').current = (view s).current) ⟨rfl, rfl⟩ fun x mem s' kept => ?_
  have quiet : x.call.changesTree = false := by
    rw [left] at mem
    rcases List.mem_cons.mp mem with rfl | mem
    · rfl
    · exact changesTree_of_cleansUp (cleaned x mem)
  obtain ⟨tree, current⟩ := sameTree_of_disturbed (keeps x.call s') quiet
  exact ⟨tree.trans kept.1, current.trans kept.2⟩

/-! ## Clones -/

/-- A clone can be taken up again. On a machine as in `cloneTree_merges`, let the hook raise a fault
in a clone, at whatever entry and in whatever directory, so that the clone ends with it. A second
clone leaves the destination as one clone from the start would have, and it builds on what the first
one has left. Neither of them touches what is not in the destination. If the fault comes between two
pieces of a file, however, there is no more than a part of this file in the end (`Forest.Cut`). -/
theorem cloneTree_resumes (keeps : halted.KeepsTo (Disturbed fun _ => True) view)
    (keeps' : world.KeepsTo (Disturbed fun _ => True) view) {s : σ}
    (regular : (view s).tree.Regular) (plain : (view s).tree.Unaliased)
    (origin : f.On (some g.place.node) (view s)) (target : g.On none (view s))
    (first : f.place.node ∉ g.place.node :: g.inside) (out : g.place.node ∉ f.inside)
    (uid gid : Int) {chunkSize : Option Int} (positive : ∀ size ∈ chunkSize, 0 ≤ size)
    {limits : Limits} (deep : f.forest.depth < limits.depth)
    (enough : f.forest.longest < limits.pieces) {before after : List Exchange} {fault : Fault}
    (raised : (cloneTree f.path g.path uid gid chunkSize limits).trace halted s =
      before ++ .raised fault :: after)
    (heard : fault.IsSystem → betweenPieces before = false)
    (fair : ∀ x ∈ before, x.call.Unhindered x.reply)
    (again : ∀ x ∈ (cloneTree f.path g.path uid gid chunkSize limits).trace world
      ((cloneTree f.path g.path uid gid chunkSize limits).run halted s).2,
      x.call.Unhindered x.reply)
    (once : ∀ x ∈ (cloneTree f.path g.path uid gid chunkSize limits).trace world s,
      x.call.Unhindered x.reply) :
    let halts := (cloneTree f.path g.path uid gid chunkSize limits).run halted s
    let resumes := (cloneTree f.path g.path uid gid chunkSize limits).run world halts.2
    let whole := (cloneTree f.path g.path uid gid chunkSize limits).run world s
    halts.1 = .error fault ∧ (∃ report, resumes.1 = .ok report) ∧
      ∃ part left full : Folder,
        (part.path = g.path ∧ part.place = g.place ∧ part.On none (view halts.2)) ∧
        (left.path = g.path ∧ left.place = g.place ∧ left.On none (view resumes.2)) ∧
        (full.path = g.path ∧ full.place = g.place ∧ full.On none (view whole.2)) ∧
        full.forest = (mergedFolders uid gid f g).1 ∧
        g.forest.Extends part.forest ∧ part.forest.Extends left.forest ∧
        (betweenPieces before = false → left.forest = full.forest) ∧
        (betweenPieces before = true → full.forest.Cut left.forest) ∧
        GrowsIn (g.place.node :: g.inside) (view s).tree (view resumes.2).tree ∧
        GrowsIn (g.place.node :: g.inside) (view s).tree (view whole.2).tree := by
  have large := one_le_chunkSize uid gid positive limits
  have starts := Starts.of_on (Cloner.make uid gid chunkSize limits) regular plain origin target
    first out
  have clones := performs_clone large starts deep enough
  -- the first clone ends where the hook raises its fault, and the destination stays as it is there
  obtain ⟨ended, cleaned⟩ := Yields.run (Closes.of_disturbed keeps)
    (hearingParts.cloneTree f.path g.path uid gid chunkSize limits).heeds before fault after raised
    heard
  obtain ⟨q, s₁, ⟨part, there, merged, resumes⟩, left, run⟩ := clones.paused keeps rfl raised fair
  obtain ⟨tree, current⟩ := sameTree_of_raised keeps left cleaned
  rw [run] at tree current
  rw [← tree] at merged
  have cwd := current.trans there
  -- so the second clone can start, in the same directories
  have secondly := performs_clone large (starts.after merged cwd) deep enough
  rw [merged.path] at secondly
  obtain ⟨report, left, filled, cwd', merged'⟩ := Meets.run_of_trace keeps' again secondly.does
  obtain ⟨_, full, whole, cwd'', merged''⟩ := Meets.run_of_trace keeps' once clones.does
  rw [mergedFolders_fst, copyingBetween_eq merged.path] at filled
  have whole' := whole
  rw [mergedFolders_fst] at whole'
  have both := merged.trans merged'
  refine ⟨ended, ⟨_, report⟩, part, left, full,
    ⟨merged.path, merged.place, target.merges merged cwd⟩,
    ⟨both.path, both.place, target.merges both (cwd'.trans cwd)⟩,
    ⟨merged''.path, merged''.place, target.merges merged'' cwd''⟩, whole, resumes.grown, ?_, ?_, ?_,
    both.grows, merged''.grows⟩
  · rw [filled]
    exact Copying.extends_fill _ _ _
  · intro outside
    rw [filled, whole']
    exact resumes.same outside
  · intro between
    rw [filled, whole']
    exact resumes.part between

/-- The hook of a user who stops a clone on some machines. -/
def stopping (stops : Machine → Bool) (c : Call) (m : Machine) : Option Fault :=
  match c with
  | .pause => if stops m then some (.thrown .runtime "stop") else none
  | _ => none

theorem stopping_keepsTo (stops : Machine → Bool) :
    (failing (stopping stops)).KeepsTo (Disturbed fun _ => True) fun m => m := by
  intro c m
  cases c with
  | pause =>
    refine .foreign _ rfl ?_
    unfold failing stopping
    dsimp only
    cases stops m <;> exact .refl m
  | _ => exact .answered _ m

/-- The hook of a user who stops a clone of the sample as soon as there is a new file. -/
def stoppingLater : Call → Machine → Option Fault :=
  stopping fun m => m.tree.nodes.length = 7 && m.descriptors.isEmpty

/-- A clone of the sample's skeleton into a directory of its own. -/
def sampleClone : Program CloneReport :=
  cloneTree sampleSkeleton.path sampleInner.path 7 8 none { depth := 1, pieces := 3 }

/-- A clone is stopped after the first file, and made again. -/
theorem cloneTree_resumes_file :
    let halts := sampleClone.run (failing stoppingLater) sample
    let resumes := sampleClone.run layer halts.2
    let whole := sampleClone.run layer sample
    halts.1 = .error (.thrown .runtime "stop") ∧ (∃ report, resumes.1 = .ok report) ∧
      ∃ left full : Folder, left.path = sampleInner.path ∧ left.On none resumes.2 ∧
        full.path = sampleInner.path ∧ full.On none whole.2 ∧
        full.forest = (mergedFolders 7 8 sampleSkeleton sampleInner).1 ∧
        left.forest = full.forest := by
  have plain : layer.KeepsTo (Disturbed fun _ => True) fun m => m := layer_keepsTo _
  have raised : sampleClone.trace (failing stoppingLater) sample =
      (sampleClone.trace (failing stoppingLater) sample).take 19 ++
        [.raised (.thrown .runtime "stop")] := by rfl
  have fair : ∀ x ∈ (sampleClone.trace (failing stoppingLater) sample).take 19,
      x.call.Unhindered x.reply := by
    decide +kernel
  have again : ∀ x ∈ sampleClone.trace layer
      (sampleClone.run (failing stoppingLater) sample).2, x.call.Unhindered x.reply := by
    decide +kernel
  have once : ∀ x ∈ sampleClone.trace layer sample, x.call.Unhindered x.reply := by
    decide +kernel
  obtain ⟨ended, report, _, left, full, _, ⟨path, _, on⟩, ⟨path', _, on'⟩, whole, _, _, same, _, _⟩ :=
    cloneTree_resumes (stopping_keepsTo _) plain sample_regular sample_unaliased
      sampleSkeleton_on sampleInner_on (by decide) (by decide) 7 8 (by simp) (by decide) (by decide)
      raised (by rintro ⟨_, bad⟩; cases bad) fair again once
  exact ⟨ended, report, left, full, path, on, path', on', whole, same (by decide +kernel)⟩

/-- A file that was given up between two of its pieces is not made up for. -/
theorem cloneTree_truncates :
    let work := cloneTree "/skel" "/home" 7 7 (some 1) { depth := 3, pieces := 3 }
    let hook := failing (stopping fun m => !m.descriptors.isEmpty)
    let halts := work.run hook sample
    let file (m : Machine) := (m.find false "/home/f").map fun found =>
      (found.2.mode, found.2.uid, found.2.gid, found.2.body)
    sample.tree.Unaliased ∧
      (∀ x ∈ work.trace hook sample, x.call.isPause = true ∨ x.call.Unhindered x.reply) ∧
      (∀ x ∈ work.trace layer halts.2, x.call.Unhindered x.reply) ∧
      (∀ x ∈ work.trace layer sample, x.call.Unhindered x.reply) ∧
      halts.1 = .error (.thrown .runtime "stop") ∧
      file (work.run layer halts.2).2 = .ok (0o600, 0, 0, .file [104]) ∧
      file (work.run layer sample).2 = .ok (0o644, 7, 7, .file [104, 105]) :=
  ⟨sample_unaliased, by decide +kernel⟩

end HomeProvision.Program
