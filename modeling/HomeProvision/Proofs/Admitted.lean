import HomeProvision.Proofs.Piecemeal

/-!
# A copy says what became of it

A file is copied in several steps that can fail one by one, and one result is given for all of them.
Each step that fails has something to say (`Exchange.complaint?`). The result is what the first of them
says (`verdict`), except that cutting the new file, which is empty anyway, and giving a file back say
nothing.

The parts of a copy are put together by what has to be said of them and by the steps that set an owner
or a mode (`Part`). Once the new file is there both of these are tried, in this order and once each,
whatever became of the content (`fillFile_concludes`). If the source or the new file cannot be opened neither
is tried, and nothing is changed (`Attempted.opening`).

`copyFile_admits` joins this to what the copy leaves on the machine (`copyFile_pours`): a copy that is
said to be made is whole and has its owner and its mode, and any other one has a first part of the
content at most.
-/

namespace HomeProvision

/-- Whether a call opens a file. -/
def Call.opens : Call → Bool
  | .openRead _ | .openExclusive _ _ => true
  | _ => false

/-- Whether a call sets an owner or a mode. -/
def Call.finishes : Call → Bool
  | .chown _ _ _ | .chmod _ _ => true
  | _ => false

/-- Whether a call does nothing to a copy: it gives a file back, or notes an event. -/
def Call.isAside : Call → Bool
  | .close _ | .log _ => true
  | _ => false

/-- Whether a file was created. -/
def Exchange.creates : Exchange → Bool
  | ⟨.openExclusive _ _, .ok _⟩ => true
  | _ => false

/-- The failure of a write that did not take all that it was given. -/
def shortWrite (path : String) (written : Int) (expected : Nat) : StepResult :=
  .failure .copy path
    ("short write: " ++ toString written ++ " of " ++ toString expected ++ " bytes")

/-- What has to be said of a call in the course of a copy, if it failed. Cutting the new file, which is
empty anyway, and giving a file back may fail. -/
def Exchange.complaint? (path : String) : Exchange → Option StepResult
  | ⟨.openRead source, .error (.system e)⟩ => some (.failure .openFile source e.message)
  | ⟨.openExclusive _ _, .error (.system e)⟩ => some (.failure .openFile path e.message)
  | ⟨.read _ _, .error (.system e)⟩ => some (.failure .copy path e.message)
  | ⟨.write _ _, .error (.system e)⟩ => some (.failure .copy path e.message)
  | ⟨.write _ bytes, .ok written⟩ =>
      if written = bytes.length then none else some (shortWrite path written bytes.length)
  | ⟨.chown _ _ _, .error (.system e)⟩ => some (.failure .chown path e.message)
  | ⟨.chmod _ _, .error (.system e)⟩ => some (.failure .chmod path e.message)
  | _ => none

theorem Exchange.complaint?_failed {path : String} {x : Exchange} {result : StepResult}
    (said : x.complaint? path = some result) : result.success = false := by
  unfold Exchange.complaint? at said
  split at said
  any_goals cases said; rfl
  · split at said
    · cases said
    · cases said
      rfl
  · cases said

/-- The result of a copy: its first failure, if there is one. -/
def verdict (path : String) (complaint? : Option StepResult) : StepResult :=
  complaint?.getD (.ok (some path))

/-- What a part of a copy has done: the last steps that it has tried, and what has to be said of it. It
opens no file. -/
structure Part (path : String) (ended : List Call) (complaint? : Option StepResult)
    (t : List Exchange) : Prop where
  said : t.findSome? (Exchange.complaint? path) = complaint?
  ended : (t.map Exchange.call).filter Call.finishes = ended
  opens : ∀ x ∈ t, x.call.opens = false

namespace Part

variable {path : String} {ended ended' : List Call} {complaint? complaint?' : Option StepResult}
  {t t' : List Exchange}

theorem nil : Part path [] none [] :=
  ⟨rfl, rfl, fun _ mem => absurd mem List.not_mem_nil⟩

theorem append (h : Part path ended complaint? t) (h' : Part path ended' complaint?' t') :
    Part path (ended ++ ended') (complaint?.or complaint?') (t ++ t') where
  said := by rw [List.findSome?_append, h.said, h'.said]
  ended := by rw [List.map_append, List.filter_append, h.ended, h'.ended]
  opens := by
    intro x mem
    rcases List.mem_append.mp mem with mem | mem
    · exact h.opens x mem
    · exact h'.opens x mem

theorem single {x : Exchange} (said : x.complaint? path = complaint?)
    (ends : [x.call].filter Call.finishes = ended) (opens : x.call.opens = false) :
    Part path ended complaint? [x] where
  said := by
    rw [List.findSome?_cons, said]
    cases complaint? <;> rfl
  ended := ends
  opens := by simpa using opens

theorem failed (h : Part path ended complaint? t) : ∀ result ∈ complaint?, result.success = false := by
  intro result mem
  obtain ⟨x, _, said⟩ := List.exists_of_findSome?_eq_some (h.said.trans mem)
  exact Exchange.complaint?_failed said

/-- What is done aside is no part of a copy. -/
theorem aside (quiet : ∀ x ∈ t, x.call.isAside = true) : Part path [] none t := by
  induction t with
  | nil => exact nil
  | cons x rest ih =>
    obtain ⟨first, others⟩ := List.forall_mem_cons.mp quiet
    have own : Part path [] none [x] := by
      obtain ⟨c, r⟩ := x
      cases c with
      | close number => exact .single rfl rfl rfl
      | log event => exact .single rfl rfl rfl
      | _ => cases first
    exact own.append (ih others)

end Part

namespace Program

open Machine

variable {α : Type} {path source : String} {reading writing : Int}

/-! ## Steps aside -/

theorem log_aside {level : Level} {event : String} {details : List (String × Detail)}
    {k : Unit → Program α} {post : Except Fault α → List Exchange → Prop}
    (onward : ∀ x : Exchange, x.call.isAside = true →
      (k ()).Yields Orderly fun out t => post out (x :: t)) :
    ((log level event details).bind k).Yields Orderly post :=
  fun r _ => onward ⟨.log _, r⟩ rfl

theorem closeQuietly_aside (number : Int) (event path : String) :
    (closeQuietly number event path).Yields Orderly fun out t =>
      out = .ok () ∧ ∀ x ∈ t, x.call.isAside = true := by
  have closed : (close number).Yields Orderly fun out t =>
      FailsOrderly out ∧ ∀ x ∈ t, x.call.isAside = true :=
    fun r ok => yields_ofExcept.mpr ⟨ok, by simp [Call.isAside]⟩
  refine closed.attempt (fun _ t reached => ?_) (fun e t reached => ?_) fun f t other reached => ?_
  · exact ⟨rfl, by simpa using reached.2⟩
  · refine fun r _ => ⟨rfl, fun x mem => ?_⟩
    rcases List.mem_append.mp mem with mem | mem
    · exact reached.2 x mem
    · cases List.mem_singleton.mp mem
      rfl
  · obtain ⟨e, same⟩ := reached.1 f rfl
    exact absurd same (other e)

/-! ## The stream -/

/-- How pieces come to an end, and what has to be said of it then. -/
inductive Streamed (path : String) :
    Except Fault (Option (Int × Nat)) → List Exchange → Prop
  | whole {t : List Exchange} (part : Part path [] none t) : Streamed path (.ok none) t
  | short {written : Int} {expected : Nat} {t : List Exchange}
      (part : Part path [] (some (shortWrite path written expected)) t) :
      Streamed path (.ok (some (written, expected))) t
  | error {e : SystemError} {t : List Exchange}
      (part : Part path [] (some (.failure .copy path e.message)) t) :
      Streamed path (.error (.system e)) t
  | limit {t : List Exchange} : Streamed path (.error .limit) t

theorem Streamed.after {out : Except Fault (Option (Int × Nat))} {before t : List Exchange}
    (quiet : Part path [] none before) (h : Streamed path out t) : Streamed path out (before ++ t) := by
  cases h with
  | whole part => exact .whole (quiet.append part)
  | short part => exact .short (quiet.append part)
  | error part => exact .error (quiet.append part)
  | limit => exact .limit

theorem copyPieces_streamed (size : Int) (pieces : Nat) :
    (copyPieces reading writing size pieces).Yields Orderly (Streamed path) := by
  induction pieces with
  | zero => exact .limit
  | succ pieces ih =>
    intro r ok
    cases r with
    | error f =>
      obtain ⟨e, rfl⟩ := ok f rfl
      exact .error (.single rfl rfl rfl)
    | ok piece =>
      have read : Part path [] none [⟨.read reading size, .ok piece⟩] := .single rfl rfl rfl
      change Yields _ (if piece.isEmpty then _ else _) _
      split
      · exact .whole read
      intro r ok
      cases r with
      | error f =>
        obtain ⟨e, rfl⟩ := ok f rfl
        exact .error (read.append (.single rfl rfl rfl))
      | ok written =>
        change Yields _ (if written ≠ piece.length then _ else _) _
        split
        · next other => exact .short (read.append (.single (if_neg other) rfl rfl))
        next whole =>
        have wrote : Part path [] none [⟨.write writing piece, .ok written⟩] :=
          .single (if_pos (not_not.mp whole)) rfl rfl
        intro r ok
        obtain ⟨_, rfl⟩ := ok
        refine Yields.mono ih fun out t ends => ?_
        have paused : Part path [] none [⟨.pause, .ok ()⟩] := .single rfl rfl rfl
        exact ends.after ((read.append wrote).append paused)

/-! ## Results -/

/-- What a part of a copy gives: the verdict on all that has to be said so far. -/
def Concludes (path : String) (ended : List Call) (before? : Option StepResult)
    (out : Except Fault StepResult) (t : List Exchange) : Prop :=
  out = .error .limit ∨ ∃ complaint?, out = .ok (verdict path (before?.or complaint?)) ∧
    Part path ended complaint? t

theorem stream_concludes (c : Cloner) :
    (stream c reading writing path).Yields Orderly (Concludes path [] none) := by
  have copied : (copyPieces reading writing c.chunkSize c.limits.pieces).Yields Orderly
      (Streamed path) := copyPieces_streamed _ _
  refine Yields.attempt (copied.bind (fun ended t reached => ?_) fun f t reached => ?_ :
      Yields Orderly _ fun out t => out = .error .limit ∨
        (∃ complaint?, out = .ok (verdict path complaint?) ∧ Part path [] complaint? t) ∨
        ∃ e, out = .error (.system e) ∧ Part path [] (some (.failure .copy path e.message)) t)
    (fun result t reached => ?_) (fun e t reached => ?_) fun f t other reached => ?_
  · cases reached with
    | whole part => exact .inr (.inl ⟨none, rfl, by simpa using part⟩)
    | short part =>
      refine log_aside fun x aside => .inr (.inl ⟨some (shortWrite path _ _), rfl, ?_⟩)
      exact part.append (.aside (by simpa using aside))
  · cases reached with
    | error part => exact .inr (.inr ⟨_, rfl, part⟩)
    | limit => exact .inl rfl
  · rcases reached with bad | ⟨complaint?, same, part⟩ | ⟨_, bad, _⟩
    · cases bad
    · cases same
      exact .inr ⟨complaint?, rfl, by simpa using part⟩
    · cases bad
  · rcases reached with bad | ⟨_, bad, _⟩ | ⟨e, same, part⟩
    · cases bad
    · cases bad
    · cases same
      refine log_aside fun x aside => .inr ⟨some (.failure .copy path e.message), rfl, ?_⟩
      exact part.append (.aside (by simpa using aside))
  · rcases reached with same | ⟨_, bad, _⟩ | ⟨e, same, _⟩
    · cases same
      exact .inl rfl
    · cases bad
    · cases same
      exact absurd rfl (other e)

/-- A further step, which is said to have failed only if nothing had to be said before. -/
theorem finish_concludes {p : Program Unit} {k : Except SystemError Unit → Program StepResult} {x : Call}
    {kind : FailureKind} {before? : Option StepResult}
    (failed : ∀ result ∈ before?, result.success = false)
    (tried : p.Yields Orderly fun out t => (out = .ok () ∧ Part path [x] none t) ∨
      ∃ e, out = .error (.system e) ∧ Part path [x] (some (.failure kind path e.message)) t)
    (onward : k (.ok ()) = .done (verdict path before?))
    (caught : ∀ e, ∃ level event details, k (.error e) = (log level event details).bind fun _ =>
      .done (firstFailure (verdict path before?) kind path e)) :
    ((attempt p).bind k).Yields Orderly (Concludes path [x] before?) := by
  refine tried.attempt (fun _ t reached => ?_) (fun e t reached => ?_) fun f t other reached => ?_
  · rcases reached with ⟨_, part⟩ | ⟨_, bad, _⟩
    · rw [onward]
      exact .inr ⟨none, by rw [Option.or_none], by simpa using part⟩
    · cases bad
  · rcases reached with ⟨bad, _⟩ | ⟨_, same, part⟩
    · cases bad
    cases same
    obtain ⟨level, event, details, caught⟩ := caught e
    rw [caught]
    refine log_aside fun y aside => .inr ⟨some (.failure kind path e.message), ?_, ?_⟩
    · unfold firstFailure verdict
      cases before? with
      | none => rfl
      | some result => simp [failed result rfl]
    · exact part.append (.aside (by simpa using aside))
  · rcases reached with ⟨bad, _⟩ | ⟨_, same, _⟩
    · cases bad
    · cases same
      exact absurd rfl (other _)

section

variable {before? : Option StepResult} (failed : ∀ result ∈ before?, result.success = false)
include failed

theorem finishOwner_concludes (c : Cloner) :
    (finishOwner c path (verdict path before?)).Yields Orderly
      (Concludes path [.chown path c.uid c.gid] before?) := by
  refine finish_concludes failed (fun r ok => ?_) rfl fun e => ⟨_, _, _, rfl⟩
  cases r with
  | ok _ => exact .inl ⟨rfl, .single rfl rfl rfl⟩
  | error f =>
    obtain ⟨e, rfl⟩ := ok f rfl
    exact .inr ⟨e, rfl, .single rfl rfl rfl⟩

theorem finishMode_concludes (mode : Int) :
    (finishMode path mode (verdict path before?)).Yields Orderly
      (Concludes path [.chmod path mode] before?) := by
  refine finish_concludes failed (fun r ok => ?_) rfl fun e => ⟨_, _, _, rfl⟩
  cases r with
  | ok _ => exact .inl ⟨rfl, .single rfl rfl rfl⟩
  | error f =>
    obtain ⟨e, rfl⟩ := ok f rfl
    exact .inr ⟨e, rfl, .single rfl rfl rfl⟩

end

/-- One part after another: the second one is told what has to be said of the first. -/
theorem Concludes.bind {p : Program StepResult} {k : StepResult → Program StepResult}
    {ended ended' : List Call} {before? : Option StepResult}
    (failed : ∀ result ∈ before?, result.success = false)
    (first : p.Yields Orderly (Concludes path ended before?))
    (onward : ∀ later?, (∀ result ∈ later?, result.success = false) →
      (k (verdict path later?)).Yields Orderly (Concludes path ended' later?)) :
    (p.bind k).Yields Orderly (Concludes path (ended ++ ended') before?) := by
  refine Yields.bind first (fun result t reached => ?_) fun f t reached => ?_
  · rcases reached with bad | ⟨complaint?, same, part⟩
    · cases bad
    cases same
    have failed : ∀ result ∈ before?.or complaint?, result.success = false := by
      cases before? with
      | none => exact part.failed
      | some first => exact failed
    refine (onward _ failed).mono fun out t' ends => ?_
    rcases ends with limit | ⟨complaint?', same, part'⟩
    · exact .inl limit
    · exact .inr ⟨complaint?.or complaint?', Option.or_assoc ▸ same, part.append part'⟩
  · rcases reached with same | ⟨_, bad, _⟩
    · cases same
      exact .inl rfl
    · cases bad

theorem Concludes.aside {ended : List Call} {before? : Option StepResult} {out : Except Fault StepResult}
    {t t' : List Exchange} (h : Concludes path ended before? out t)
    (aside : ∀ x ∈ t', x.call.isAside = true) : Concludes path ended before? out (t ++ t') := by
  rcases h with limit | ⟨complaint?, same, part⟩
  · exact .inl limit
  · exact .inr ⟨complaint?, same, by simpa using part.append (.aside aside)⟩

/-- Giving a file back has no influence on what is said. -/
theorem ensuring_aside {body : Program StepResult}
    (said : Except Fault StepResult → List Exchange → Prop)
    (lasts : ∀ out t t', said out t → (∀ x ∈ t', x.call.isAside = true) → said out (t ++ t'))
    (h : body.Yields Orderly said) (number : Int) (event path' : String) :
    (ensuring body (closeQuietly number event path')).Yields Orderly said := by
  refine Yields.ensuring h fun out t reached => ?_
  refine (closeQuietly_aside number event path').mono fun closed t' ends => ?_
  obtain ⟨rfl, aside⟩ := ends
  exact lasts out t t' reached aside

/-- Once a file was created, its owner and then its mode are set, whatever becomes of its content. -/
theorem fillFile_concludes (c : Cloner) (mode : Int) :
    (fillFile c reading writing path mode).Yields Orderly
      (Concludes path [.chown path c.uid c.gid, .chmod path mode] none) := by
  have none_failed : ∀ result ∈ (none : Option StepResult), result.success = false :=
    fun _ bad => by cases bad
  have finished : ((stream c reading writing path).bind fun result =>
      (finishOwner c path result).bind fun result => finishMode path mode result).Yields Orderly
      (Concludes path [.chown path c.uid c.gid, .chmod path mode] none) :=
    Concludes.bind none_failed (stream_concludes c) fun _ failed =>
      Concludes.bind failed (finishOwner_concludes failed c) fun _ failed => finishMode_concludes failed mode
  have filled := ensuring_aside (Concludes path [.chown path c.uid c.gid, .chmod path mode] none)
    (fun _ _ _ said aside => said.aside aside) finished writing "Error closing destination file" path
  have cut : (truncate path 0).Yields Orderly fun out t => FailsOrderly out ∧ Part path [] none t :=
    fun r ok => yields_ofExcept.mpr ⟨ok, .single rfl rfl rfl⟩
  have onward (t : List Exchange) (part : Part path [] none t) :
      (ensuring ((stream c reading writing path).bind fun result =>
          (finishOwner c path result).bind fun result => finishMode path mode result)
        (closeQuietly writing "Error closing destination file" path)).Yields Orderly
        fun out t' => Concludes path [.chown path c.uid c.gid, .chmod path mode] none out (t ++ t') := by
    refine filled.mono fun out t' said => ?_
    rcases said with limit | ⟨complaint?, same, part'⟩
    · exact .inl limit
    · exact .inr ⟨complaint?, same, by simpa using part.append part'⟩
  refine cut.attempt (fun _ t reached => ?_) (fun e t reached => ?_) fun f t other reached => ?_
  · exact onward t reached.2
  · refine log_aside fun x aside => ?_
    have noted := reached.2.append (.aside (t := [x]) (by simpa using aside))
    have rest := onward _ noted
    simp only [List.append_assoc, List.singleton_append] at rest
    exact rest
  · obtain ⟨e, same⟩ := reached.1 f rfl
    exact absurd same (other e)

/-- How a copy goes on once both files were to be opened. -/
inductive Attempted (c : Cloner) (source path : String) (mode : Int) :
    Except Fault StepResult → List Exchange → Prop
  | unread {e : SystemError} {t : List Exchange} (aside : ∀ x ∈ t, x.call.isAside = true) :
      Attempted c source path mode (.ok (.failure .openFile source e.message))
        (⟨.openRead source, .error (.system e)⟩ :: t)
  | uncreated {number : Int} {e : SystemError} {t : List Exchange}
      (aside : ∀ x ∈ t, x.call.isAside = true) :
      Attempted c source path mode (.ok (.failure .openFile path e.message))
        (⟨.openRead source, .ok number⟩ ::
          ⟨.openExclusive path freshFileMode, .error (.system e)⟩ :: t)
  | created {number number' : Int} {out : Except Fault StepResult} {t : List Exchange}
      (said : Concludes path [.chown path c.uid c.gid, .chmod path mode] none out t) :
      Attempted c source path mode out (⟨.openRead source, .ok number⟩ ::
        ⟨.openExclusive path freshFileMode, .ok number'⟩ :: t)

theorem Attempted.aside {c : Cloner} {mode : Int} {out : Except Fault StepResult}
    {t t' : List Exchange} (h : Attempted c source path mode out t)
    (aside : ∀ x ∈ t', x.call.isAside = true) : Attempted c source path mode out (t ++ t') := by
  cases h with
  | unread before =>
    exact .unread (List.forall_mem_append.mpr ⟨before, aside⟩)
  | uncreated before =>
    exact .uncreated (List.forall_mem_append.mpr ⟨before, aside⟩)
  | created said => exact .created (said.aside aside)

theorem copyFile_attempts (c : Cloner) (mode : Int) :
    (copyFile c source path mode).Yields Orderly (Attempted c source path mode) := by
  have opened : (openRead source).Yields Orderly fun out t =>
      FailsOrderly out ∧ t = [⟨.openRead source, out⟩] :=
    fun r ok => yields_ofExcept.mpr ⟨ok, rfl⟩
  have created : (openExclusive path).Yields Orderly fun out t =>
      FailsOrderly out ∧ t = [⟨.openExclusive path freshFileMode, out⟩] :=
    fun r ok => yields_ofExcept.mpr ⟨ok, rfl⟩
  refine opened.attempt (fun reading t reached => ?_) (fun e t reached => ?_)
    fun f t other reached => ?_
  · obtain ⟨_, rfl⟩ := reached
    refine ensuring_aside (fun out t => Attempted c source path mode out
      (⟨.openRead source, .ok reading⟩ :: t)) (fun _ _ _ h aside => h.aside aside) ?_ _ _ _
    refine created.attempt (fun writing t reached => ?_) (fun e t reached => ?_)
      fun f t other reached => ?_
    · obtain ⟨_, rfl⟩ := reached
      exact (fillFile_concludes c mode).mono fun out t said => .created said
    · obtain ⟨_, rfl⟩ := reached
      exact log_aside fun x aside => .uncreated (by simpa using aside)
    · obtain ⟨e, same⟩ := reached.1 f rfl
      exact absurd same (other e)
  · obtain ⟨_, rfl⟩ := reached
    exact log_aside fun x aside => .unread (by simpa using aside)
  · obtain ⟨e, same⟩ := reached.1 f rfl
    exact absurd same (other e)

/-! ## Runs -/

/-- A cloner never asks for nothing, since a chunk size of zero is the same as none. -/
theorem chunkSize_make_ne_zero (uid gid : Int) (chunkSize : Option Int) (limits : Limits) :
    (Cloner.make uid gid chunkSize limits).chunkSize ≠ 0 := by
  unfold Cloner.make
  dsimp only
  split
  · decide
  · decide
  · next other => exact other

/-- A copy that ends gives the verdict on all its calls. -/
theorem Attempted.result_eq {c : Cloner} {mode : Int} {result : StepResult} {t : List Exchange}
    (h : Attempted c source path mode (.ok result) t) :
    result = verdict path (t.findSome? (Exchange.complaint? path)) := by
  cases h with
  | unread _ => rfl
  | uncreated _ => rfl
  | created said =>
    obtain bad | ⟨complaint?, same, part⟩ := said
    · cases bad
    · cases same
      rw [← part.said]
      rfl

/-- Once a file was created, its owner and its mode are set, and otherwise neither is. -/
theorem Attempted.finishes {c : Cloner} {mode : Int} {result : StepResult} {t : List Exchange}
    (h : Attempted c source path mode (.ok result) t) :
    (t.map Exchange.call).filter Call.finishes =
      if t.any Exchange.creates then [.chown path c.uid c.gid, .chmod path mode] else [] := by
  have idle {t : List Exchange} (aside : ∀ x ∈ t, x.call.isAside = true) :
      t.any Exchange.creates = false := by
    refine List.any_eq_false.mpr fun x mem made => ?_
    obtain ⟨call, reply⟩ := x
    cases call <;> first | cases made | cases aside _ mem
  cases h with
  | @unread e t aside =>
    have part : Part path [] none t := .aside aside
    have plain : Exchange.creates ⟨.openRead source, .error (.system e)⟩ = false := rfl
    rw [List.any_cons, plain, idle aside]
    exact part.ended
  | @uncreated number e t aside =>
    have part : Part path [] none t := .aside aside
    have plain : Exchange.creates ⟨.openRead source, .ok number⟩ = false := rfl
    have failed : Exchange.creates ⟨.openExclusive path freshFileMode, .error (.system e)⟩ = false :=
      rfl
    rw [List.any_cons, List.any_cons, plain, failed, idle aside]
    exact part.ended
  | created said =>
    obtain bad | ⟨complaint?, _, part⟩ := said
    · cases bad
    · exact part.ended

/-- Where a file cannot be opened nothing is changed: the only call that might is the one that
fails. -/
theorem Attempted.opening {c : Cloner} {mode : Int} {result : StepResult} {t : List Exchange}
    (h : Attempted c source path mode (.ok result) t)
    (refused : ∃ x ∈ t, x.call.opens = true ∧ (x.call.fault? x.reply).isSome = true) :
    (∃ culprit message, result = .failure .openFile culprit message) ∧
      ∀ x ∈ t, x.call.changesTree = true →
        x.call = .openExclusive path freshFileMode ∧ (x.call.fault? x.reply).isSome = true := by
  have idle {x : Exchange} (aside : x.call.isAside = true) : x.call.changesTree = false := by
    obtain ⟨call, reply⟩ := x
    cases call <;> first | rfl | cases aside
  cases h with
  | unread aside =>
    refine ⟨⟨_, _, rfl⟩, fun x mem changes => ?_⟩
    obtain rfl | mem := List.mem_cons.mp mem
    · cases changes
    · rw [idle (aside x mem)] at changes
      cases changes
  | uncreated aside =>
    refine ⟨⟨_, _, rfl⟩, fun x mem changes => ?_⟩
    obtain rfl | mem := List.mem_cons.mp mem
    · cases changes
    obtain rfl | mem := List.mem_cons.mp mem
    · exact ⟨rfl, rfl⟩
    · rw [idle (aside x mem)] at changes
      cases changes
  | created said =>
    obtain bad | ⟨complaint?, _, part⟩ := said
    · cases bad
    -- both files were opened, and no other is after that
    obtain ⟨x, mem, opens, fails⟩ := refused
    obtain rfl | mem := List.mem_cons.mp mem
    · cases fails
    obtain rfl | mem := List.mem_cons.mp mem
    · cases fails
    · rw [part.opens x mem] at opens
      cases opens

section

variable {σ : Type} {world : Layer σ} {view : σ → Machine} {s : σ}

/-- A run in which all calls that may change the tree fail leaves it as it was. -/
theorem sameTree_of_refused (keeps : world.KeepsTo Piecemeal view) {p : Program α}
    (refused : ∀ x ∈ p.trace world s,
      x.call.changesTree = true → (x.call.fault? x.reply).isSome = true) :
    (view (p.run world s).2).tree = (view s).tree := by
  induction p generalizing s with
  | done a => rfl
  | raise f => rfl
  | call c next ih =>
    obtain ⟨first, rest⟩ := List.forall_mem_cons.mp refused
    exact (ih _ rest).trans ((keeps c s).sameTree first)

/-- Copying a file copies all of it or says so, however it is read and written and whatever fails. -/
theorem copyFile_admits (keeps : world.KeepsTo Piecemeal view) (uid gid : Int)
    (chunkSize : Option Int) (limits : Limits) (source path : String) (mode : Int) :
    let program := copyFile (.make uid gid chunkSize limits) source path mode
    let before := view s
    let content := (before.contentOf source).toOption.getD []
    let ends := program.run world s
    let calls := program.trace world s
    let after := view ends.2
    ((after.tree = before.tree ∧ ∀ result, ends.1 = .ok result → result.success = false) ∨
      ∃ spot new piece, before.tree.spot before.current path = .ok spot ∧
        before.tree.child? spot.directory spot.name = none ∧
        after.tree = before.tree.create spot.directory spot.name new ∧
        after.find true path = .ok (before.tree.nextPlace, new) ∧
        new.body = .file piece ∧ piece <+: content ∧
        ∀ result, ends.1 = .ok result → result.success = true →
          before.contentOf source = .ok piece ∧ new.uid = newId before.effectiveUid uid ∧
          new.gid = newId before.effectiveGid gid ∧ new.mode = grantedBits mode 0o7777) ∧
    ((∀ x ∈ calls, Orderly x.call x.reply) → content.length < limits.pieces →
      ends.1 = .ok (verdict path (calls.findSome? (Exchange.complaint? path))) ∧
      (calls.map Exchange.call).filter Call.finishes =
        (if calls.any Exchange.creates then [.chown path uid gid, .chmod path mode] else []) ∧
      ((∃ x ∈ calls, x.call.opens = true ∧ (x.call.fault? x.reply).isSome = true) →
        (∃ culprit message, ends.1 = .ok (.failure .openFile culprit message)) ∧
        after.tree = before.tree ∧
        ∀ x ∈ calls, x.call.changesTree = true → x.call = .openExclusive path freshFileMode)) := by
  intro program before content ends calls after
  have some := chunkSize_make_ne_zero uid gid chunkSize limits
  refine ⟨?_, fun orderly enough => ?_⟩
  · have copied : program.Pours (fun _ _ => True) (fun out now =>
        Copied before source path (.make uid gid chunkSize limits) mode out now ∧
          (False → ∃ result, out = .ok result)) before :=
      copyFile_pours (fun bad => bad.elim) some fun bad => bad.elim
    exact (Meets.run_of_trace keeps (fun _ _ => trivial) copied).1.outcome
  · have copied : program.Pours Orderly (fun out now =>
        Copied before source path (.make uid gid chunkSize limits) mode out now ∧
          (True → ∃ result, out = .ok result)) before :=
      copyFile_pours (fun _ _ _ kept => kept) some fun _ => enough
    have ended := (Meets.run_of_trace keeps orderly copied).2 trivial
    obtain ⟨result, ended⟩ := ended
    have tried : Attempted (.make uid gid chunkSize limits) source path mode ends.1 calls :=
      (copyFile_attempts _ _).run_of_trace orderly
    rw [ended] at tried ⊢
    refine ⟨congrArg _ tried.result_eq, tried.finishes, fun refused => ?_⟩
    obtain ⟨⟨culprit, message, same⟩, refusals⟩ := tried.opening refused
    exact ⟨⟨culprit, message, congrArg _ same⟩,
      sameTree_of_refused keeps fun x mem changes => (refusals x mem changes).2,
      fun x mem changes => (refusals x mem changes).1⟩

end

/-- Two bytes are copied one by one. Where no byte is taken the copy says so, and is given away all the
same. -/
theorem copyFile_admits_sparing :
    let copy := copyFile (.make 7 8 (some 0) { depth := 1, pieces := 3 }) "/skel/f" "/home/f" 0o640
    let whole := copy.run (sparing 1) sample
    let cut := copy.run (sparing 0) sample
    whole.1 = .ok (.ok (some "/home/f")) ∧
      (∃ new, whole.2.find true "/home/f" = .ok (6, new) ∧ new.body = .file [104, 105] ∧
        new.uid = 7 ∧ new.gid = 8 ∧ new.mode = 0o640) ∧
      cut.1 = .ok (.failure .copy "/home/f" "short write: 0 of 1 bytes") ∧
      ((copy.trace (sparing 0) sample).map Exchange.call).filter Call.finishes =
        [.chown "/home/f" 7 8, .chmod "/home/f" 0o640] := by
  intro copy whole cut
  have content : sample.contentOf "/skel/f" = .ok [104, 105] := by decide +kernel
  have well : whole.1 = .ok (.ok (some "/home/f")) := by decide +kernel
  obtain ⟨copied, _⟩ := copyFile_admits (s := sample) (sparing_keepsTo 1) 7 8 (some 0)
    { depth := 1, pieces := 3 } "/skel/f" "/home/f" 0o640
  obtain ⟨_, failed⟩ | ⟨_, new, piece, _, _, _, found, body, _, told⟩ := copied
  · cases failed _ well
  obtain ⟨read, uid, gid, mode⟩ := told _ well rfl
  cases content.symm.trans read
  have orderly : ∀ x ∈ copy.trace (sparing 0) sample, Orderly x.call x.reply := by decide +kernel
  have few : ((sample.contentOf "/skel/f").toOption.getD []).length < 3 := by
    rw [content]
    decide
  obtain ⟨_, told⟩ := copyFile_admits (s := sample) (sparing_keepsTo 0) 7 8 (some 0)
    { depth := 1, pieces := 3 } "/skel/f" "/home/f" 0o640
  obtain ⟨said, ended, _⟩ := told orderly few
  have complaint : (copy.trace (sparing 0) sample).findSome? (Exchange.complaint? "/home/f") =
      some (shortWrite "/home/f" 0 1) := by decide +kernel
  have made : (copy.trace (sparing 0) sample).any Exchange.creates = true := by decide +kernel
  refine ⟨well, ⟨new, found, body, uid, gid, mode⟩, said.trans ?_, ended.trans (if_pos made)⟩
  rw [complaint]
  rfl

end Program

end HomeProvision
