import HomeProvision.Proofs.Disarmed
import HomeProvision.Proofs.Moved

/-!
# What becomes of links

A clone creates a link only right after it has read one of the skeleton, at the place that belongs
to that of the original, and writes the target that it has read, moved along from the source to the
destination. So it is known which links keep their text (`cloneTree_relinks`).

* Where one of source and target is an absolute path and the other one is not, the target stays.
* Where the source is an absolute path, a target stays that leads out of it, if `.` and `..` are
  resolved on the texts, unless it leads down from the source first and climbs then.

Moving goes by the texts, and that is where links change that do not point into the skeleton: in
`/skel`, the target `/skel/../etc/hosts` is another spelling of `/etc/hosts`, and is moved. And
where the source is `skel`, a target `skel/x` is moved, although it is meant from the place of the
link.
-/

namespace HomeProvision

/-! ## Resolving paths on their texts -/

namespace Path

/-- Goes on by one component: `.` stays and `..` goes up, as far as there is something above. -/
def follow (done : List String) (part : String) : List String :=
  if part = "." then done else if part = ".." then done.dropLast else done ++ [part]

/-- The components that are left of an absolute path when `.` and `..` are resolved. -/
def resolved (path : String) : List String :=
  (components path).foldl follow []

/-- Whether an absolute path is the one of a directory or leads to what is below it. -/
def LiesIn (directory path : String) : Prop :=
  resolved directory <+: resolved path

instance (directory path : String) : Decidable (LiesIn directory path) :=
  inferInstanceAs (Decidable (_ <+: _))

/-- Whether a path leads down from a directory and climbs then. -/
def Climbs (directory path : String) : Prop :=
  ∃ rest, IsBelow (dropFinalSlashes directory.toList) rest path.toList ∧
    ".." ∈ components (String.ofList rest)

theorem prefix_foldl_follow {parts : List String} (level : ".." ∉ parts) (done : List String) :
    done <+: parts.foldl follow done := by
  induction parts generalizing done with
  | nil => exact List.prefix_rfl
  | cons part rest ih =>
    obtain ⟨up, level⟩ := not_or.mp (mt List.mem_cons.mpr level)
    refine List.IsPrefix.trans ?_ (ih level (follow done part))
    unfold follow
    rw [if_neg (Ne.symm up)]
    split
    · exact List.prefix_rfl
    · exact List.prefix_append done [part]

theorem components_slashes (n : Nat) (cs : List Char) :
    components (String.ofList (List.replicate n '/' ++ cs)) = components (String.ofList cs) := by
  induction n with
  | zero => rfl
  | succ n ih =>
    have split := components_append_slash "" (String.ofList (List.replicate n '/' ++ cs))
    rw [← ih, ← List.nil_append (components (String.ofList (List.replicate n '/' ++ cs)))]
    refine Eq.trans (congrArg components ?_) split
    rw [← String.toList_inj]
    simp [List.replicate_succ]

theorem components_append_slashes {n : Nat} (some : 0 < n) (stem rest : List Char) :
    components (String.ofList (stem ++ (List.replicate n '/' ++ rest))) =
      components (String.ofList stem) ++ components (String.ofList rest) := by
  obtain ⟨n, rfl⟩ := Nat.exists_eq_add_one_of_ne_zero (Nat.ne_of_gt some)
  rw [← components_slashes n rest, ← components_append_slash]
  refine congrArg components ?_
  rw [← String.toList_inj]
  simp [List.replicate_succ]

theorem components_finalSlashes (n : Nat) (stem : List Char) :
    components (String.ofList (stem ++ List.replicate n '/')) =
      components (String.ofList stem) := by
  cases n with
  | zero => rw [List.replicate_zero, List.append_nil]
  | succ n =>
    have split := components_append_slashes (Nat.succ_pos n) stem []
    rwa [List.append_nil, show components (String.ofList []) = [] from rfl,
      List.append_nil] at split

section

variable {source target dest : String}

theorem components_stem (source : String) :
    components (String.ofList (dropFinalSlashes source.toList)) = components source := by
  obtain ⟨n, split, -⟩ := exists_finalSlashes source.toList
  rw [← components_finalSlashes n, ← split, String.ofList_toList]

/-- A target that is the source leads nowhere else. -/
theorem liesIn_of_isTop (top : IsTop (dropFinalSlashes source.toList) target.toList) :
    LiesIn source target := by
  obtain ⟨n, split, -⟩ := top
  have same : components target = components source := by
    rw [← String.ofList_toList (s := target), split, components_finalSlashes, components_stem]
  have alike : resolved source = resolved target := congrArg (List.foldl follow []) same.symm
  unfold LiesIn
  exact alike ▸ List.prefix_rfl

/-- A target that leads down from the source and does not climb leads to what is below it. -/
theorem liesIn_of_isBelow {rest : List Char}
    (below : IsBelow (dropFinalSlashes source.toList) rest target.toList)
    (level : ".." ∉ components (String.ofList rest)) : LiesIn source target := by
  obtain ⟨n, some, split, -⟩ := below
  have parts : components target = components source ++ components (String.ofList rest) := by
    rw [← String.ofList_toList (s := target), split, components_append_slashes some,
      components_stem]
  unfold LiesIn resolved
  rw [parts, List.foldl_append]
  exact prefix_foldl_follow level _

/-- A target that leads out of the source stays, unless it climbs. -/
theorem remap_outside (out : ¬ LiesIn source target) (level : ¬ Climbs source target) :
    remap target source dest = target := by
  refine remap_apart (fun top => out (liesIn_of_isTop top)) fun rest below => ?_
  exact out (liesIn_of_isBelow below fun up => level ⟨rest, below, up⟩)

/-- What starts with the stem of a path and a slash starts as the path does. -/
theorem isAbsolute_of_stem {tail : List Char} (full : source ≠ "")
    (split : target.toList = dropFinalSlashes source.toList ++ tail)
    (root : dropFinalSlashes source.toList = [] → tail.head? = some '/') :
    isAbsolute target = isAbsolute source := by
  obtain ⟨n, whole, -⟩ := exists_finalSlashes source.toList
  unfold isAbsolute
  rw [split]
  cases stem : dropFinalSlashes source.toList with
  | cons c stem => rw [whole, stem]; rfl
  | nil =>
    rw [stem, List.nil_append] at whole
    rw [List.nil_append, root stem, whole]
    cases n with
    | zero => exact absurd (by simpa using whole) full
    | succ n => rfl

/-- A relative target stays where the source is absolute, and an absolute one where the source is
relative. -/
theorem remap_unlike (full : source ≠ "") (unlike : isAbsolute target ≠ isAbsolute source) :
    remap target source dest = target := by
  refine remap_apart (fun ⟨n, split, root⟩ => unlike (isAbsolute_of_stem full split fun bare => ?_))
    fun rest ⟨n, here, split, _⟩ => unlike (isAbsolute_of_stem full split fun _ => ?_)
  · obtain ⟨n, rfl⟩ := Nat.exists_eq_add_one_of_ne_zero (Nat.ne_of_gt (root bare))
    rfl
  · obtain ⟨n, rfl⟩ := Nat.exists_eq_add_one_of_ne_zero (Nat.ne_of_gt here)
    rfl

/-- Another spelling of what is outside is moved. -/
example : ¬ LiesIn "/skel" "/skel/../etc/hosts" ∧
    remap "/skel/../etc/hosts" "/skel" "/home/a" = "/home/a/../etc/hosts" := by
  decide

/-- A relative target is moved where the source is spelled in the same way. -/
example : remap "skel/x" "skel" "/home/a" = "/home/a/x" := by
  decide

end

end Path

/-! ## Copies of links -/

/-- Whether a link is created as the copy of one: right after the target of a link of the skeleton
was read, and with this target, moved along. -/
def PlacesLink (source dest : String) (seen : List Exchange) : Call → Prop
  | .symlink text path => ∃ above below name target before, Corresponds source dest above below ∧
      path = Path.join below name ∧
      seen = before ++ [⟨.readlink (Path.join above name), .ok target⟩] ∧
      text = Path.remap target source dest
  | _ => True

/-- Whether a call creates a link. -/
def Call.isSymlink : Call → Bool
  | .symlink _ _ => true
  | _ => false

variable {source dest : String} {seen : List Exchange}

theorem placesLink_of_ne {c : Call} (other : c.isSymlink = false) :
    PlacesLink source dest seen c := by
  cases c <;> trivial

namespace Program

variable {α : Type}

/-- Whether the links that a program creates are copies, whatever was seen. -/
def PlacesLinks (source dest : String) (p : Program α) : Prop :=
  p.Keeps Recording (fun c seen => PlacesLink source dest seen c) fun _ => True

/-- A call that creates no link. -/
theorem linkless {c : Call} {next : c.Reply → Program α} (other : c.isSymlink = false)
    (onward : ∀ r, (next r).PlacesLinks source dest) : (call c next).PlacesLinks source dest :=
  fun _ _ => ⟨placesLink_of_ne other, fun r seen' _ => onward r seen' trivial⟩

theorem linkless_log (level : Level) (event : String) (details : List (String × Detail)) :
    (log level event details).PlacesLinks source dest :=
  linkless rfl fun _ => .done _

theorem linkless_directory (path : String) (uid gid mode : Int) :
    (ensureDirectory path uid gid mode).PlacesLinks source dest := by
  have calls : DirectoryCalls Recording (fun c seen => PlacesLink source dest seen c)
      (fun _ => True) (fun _ => True) path uid gid mode :=
    { note := linkless_log
      stat := linkless rfl .ofExcept
      umask := fun _ => linkless rfl .ofExcept
      umaskNew := fun _ => linkless rfl .ofExcept
      mkdir := fun _ h => (linkless rfl .ofExcept _ h).mono fun _ _ h' => ⟨h', fun _ _ => h'⟩
      chown := linkless rfl .ofExcept
      leave := fun _ h => h }
  exact calls.ensureDirectory

theorem linkless_file (c : Cloner) (origin path : String) (mode : Int) :
    (copyFile c origin path mode).PlacesLinks source dest := by
  have calls : CopyCalls Recording (fun c seen => PlacesLink source dest seen c)
      (fun _ => True) (fun _ _ => True) origin path mode :=
    { note := linkless_log
      openRead := linkless rfl .ofExcept
      close := fun _ => linkless rfl .ofExcept
      openExclusive := fun _ h =>
        (linkless rfl .ofExcept _ h).mono fun _ _ h' => ⟨h', fun _ _ => h'⟩
      file := fun _ _ =>
        { note := linkless_log
          read := fun _ => linkless rfl .ofExcept
          write := fun _ => linkless rfl .ofExcept
          pause := linkless rfl .ofExcept
          truncate := linkless rfl .ofExcept
          chown := fun _ _ => linkless rfl .ofExcept
          chmod := linkless rfl .ofExcept }
      leave := fun _ _ h => h }
  exact calls.copyFile c

theorem linkless_planted (path : String) :
    (isPlantedNonDirectory path).PlacesLinks source dest := by
  refine Keeps.attempted (linkless rfl .ofExcept) (fun status => ?_) fun _ => .done _
  refine Keeps.bind (Keeps.ofExcept _) fun mode => ?_
  split
  · exact .done _
  · exact (linkless_log _ _ _).bind fun _ => .done _

/-! ## One link -/

section

variable {above below name target : String}

/-- Whether the target of a link is what was read last. -/
def JustRead (path target : String) (seen : List Exchange) : Prop :=
  ∃ before, seen = before ++ [⟨.readlink path, .ok target⟩]

/-- What is known of an entry that was described: if it has a target, this was read last. -/
def ReadAs (path : String) (entry : Entry) (seen : List Exchange) : Prop :=
  entry.path = path ∧ ∀ target, entry.linkTarget = some target → JustRead path target seen

theorem describeEntry_reads (name path : String) (seen : List Exchange) :
    (describeEntry name path).Meets Recording (fun c seen => PlacesLink source dest seen c)
      (fun out seen' => ∀ entry, out = .ok entry → ReadAs path entry seen') seen := by
  refine ⟨trivial, fun look seen' _ => ?_⟩
  cases look with
  | error f => exact fun _ bad => by cases bad
  | ok status =>
    change ((ofRange (Entry.ofStatus name path status)).bind _).Meets _ _ _ _
    unfold Entry.ofStatus
    cases machineMode status.mode with
    | error e => exact fun _ bad => by cases bad
    | ok bits =>
      change (if _ then _ else _ : Program Entry).Meets _ _ _ _
      split
      · refine ⟨trivial, fun reply seen'' step => ?_⟩
        cases reply with
        | ok target =>
          intro entry same
          cases same
          exact ⟨rfl, fun _ known => by cases known; exact ⟨seen', step.2⟩⟩
        | error f =>
          cases f with
          | system e =>
            intro entry same
            cases same
            exact ⟨rfl, fun _ known => by cases known⟩
          | _ => exact fun _ bad => by cases bad
      · intro entry same
        cases same
        exact ⟨rfl, fun _ known => by cases known⟩

variable (pair : Corresponds source dest above below)
include pair

/-- The copy of a link whose target was read last. -/
theorem placeLink_placesLink (c : Cloner) (read : JustRead (Path.join above name) target seen) :
    (placeLink c (Path.remap target source dest) (Path.join below name)).Meets Recording
      (fun c seen => PlacesLink source dest seen c) (fun _ _ => True) seen := by
  obtain ⟨before, rfl⟩ := read
  have created : (symlink (Path.remap target source dest) (Path.join below name)).Meets Recording
      (fun c seen => PlacesLink source dest seen c) (fun _ _ => True)
      (before ++ [⟨.readlink (Path.join above name), .ok target⟩]) :=
    ⟨⟨above, below, name, target, before, pair, rfl, rfl, rfl⟩,
      fun _ _ _ => meets_ofExcept.mpr trivial⟩
  refine Meets.attempt created ?_ ?_ fun _ _ _ _ => trivial
  · intro _ seen' _
    have gives : (lchown (Path.join below name) c.uid c.gid).PlacesLinks source dest :=
      linkless rfl .ofExcept
    refine Meets.attempt (gives seen' trivial) (fun _ _ _ => trivial) (fun e seen'' _ => ?_)
      fun _ _ _ _ => trivial
    exact (linkless_log _ _ _).bind (fun _ => .done _) seen'' trivial
  · exact fun e seen' _ => (linkless_log _ _ _).bind (fun _ => .done _) seen' trivial

/-- A link is copied with the target that was read last, which may have been read a second time. -/
theorem copySymlink_placesLink (c : Cloner) {target : Option String}
    (read : ∀ text, target = some text → JustRead (Path.join above name) text seen) :
    (copySymlink c source (Path.join above name) dest (Path.join below name) target).Meets Recording
      (fun c seen => PlacesLink source dest seen c) (fun _ _ => True) seen := by
  cases target with
  | some text => exact placeLink_placesLink pair c (read text rfl)
  | none =>
    refine Meets.attempt (q := fun out seen' => ∀ text, out = .ok text →
      JustRead (Path.join above name) text seen') ⟨trivial, fun r seen' step => ?_⟩ ?_ ?_
      fun _ _ _ _ => trivial
    · refine meets_ofExcept.mpr fun text same => ⟨seen, ?_⟩
      rw [step.2, same]
      rfl
    · exact fun text seen' read => placeLink_placesLink pair c (read text rfl)
    · exact fun e seen' _ => (linkless_log _ _ _).bind (fun _ => .done _) seen' trivial

/-! ## The walk -/

variable {w : Walk} {descend : String → String → List Identity → Program WalkState}
  (below_ : ∀ origin path entered, Corresponds source dest origin path →
    (descend origin path entered).PlacesLinks source dest)
include below_

theorem cloneSubdirectory_placesLinks {entry : Entry} (own : entry.path = Path.join above name)
    (state : WalkState) :
    (cloneSubdirectory w descend entry (Path.join below name) state).PlacesLinks source dest := by
  obtain ⟨report, entered⟩ := state
  unfold cloneSubdirectory
  dsimp only
  split
  · exact (linkless_log _ _ _).bind fun _ => .done _
  · refine (linkless_planted _).bind fun planted => ?_
    split
    · exact .done _
    refine (linkless_directory _ _ _ _).bind fun created => ?_
    split
    · exact .done _
    · rw [own]
      exact (below_ _ _ entered (.entry name pair)).bind fun _ => .done _

variable (source_ : w.sourceTop = source) (dest_ : w.destTop = dest)
include source_ dest_

theorem cloneEntry_placesLinks (name : String) (state : WalkState) :
    (cloneEntry w descend name (Path.join above name) (Path.join below name) state).PlacesLinks
      source dest := by
  intro seen _
  refine Meets.attempt (describeEntry_reads name (Path.join above name) seen)
    (fun entry seen reads => ?_) (fun e seen _ => ?_) fun _ _ _ _ => trivial
  · obtain ⟨own, read⟩ := reads entry rfl
    dsimp only
    split
    · exact cloneSubdirectory_placesLinks pair below_ own state seen trivial
    · exact (linkless_file _ _ _ _).bind (fun _ => .done _) seen trivial
    · rw [source_, dest_]
      exact (copySymlink_placesLink pair w.cloner read).bind (fun _ _ _ => trivial)
        fun _ _ _ => trivial
    · exact (linkless_log _ _ _).bind (fun _ => .done _) seen trivial
  · exact (linkless_log _ _ _).bind (fun _ => .done _) seen trivial

theorem cloneNames_placesLinks (names : List String) (state : WalkState) :
    (cloneNames w descend above below names state).PlacesLinks source dest := by
  induction names generalizing state with
  | nil => exact .done _
  | cons name rest ih =>
    refine Keeps.bind (linkless rfl .ofExcept) fun _ => ?_
    split
    · exact ih state
    · exact (cloneEntry_placesLinks pair below_ source_ dest_ name state).bind ih

end

theorem cloneDirectory_placesLinks {w : Walk} (source_ : w.sourceTop = source)
    (dest_ : w.destTop = dest) (depth : Nat) {above below : String}
    (pair : Corresponds source dest above below) (entered : List Identity) :
    (cloneDirectory w depth above below entered).PlacesLinks source dest := by
  induction depth generalizing above below entered with
  | zero => exact .raise _
  | succ depth ih =>
    refine Keeps.attempted ?_
      (fun opened => cloneNames_placesLinks pair (fun _ _ entered pair => ih pair entered) source_
        dest_ opened.2 _)
      fun e => (linkless_log _ _ _).bind fun _ => .done _
    exact Keeps.bind (linkless rfl .ofExcept) fun status =>
      Keeps.bind (linkless rfl .ofExcept) fun names => .done _

theorem cloneTree_placesLinks (source dest : String) (uid gid : Int) (chunkSize : Option Int)
    (limits : Limits) :
    (cloneTree source dest uid gid chunkSize limits).PlacesLinks source dest := by
  let c := Cloner.make uid gid chunkSize limits
  have fills : ∀ destRoot,
      ((cloneDirectory ⟨c, source, dest, destRoot⟩ c.limits.depth source dest []).bind fun filled =>
        done filled.1).PlacesLinks source dest := fun destRoot =>
    (cloneDirectory_placesLinks (w := ⟨c, source, dest, destRoot⟩) rfl rfl _ .top []).bind
      fun _ => .done _
  exact Keeps.attempted (linkless rfl .ofExcept) (fun status => fills (some status.identity))
    fun _ => fills none

/-- Where the links of a clone point to, whatever the calls answer. Each link that is created is the
copy of one that has just been read, in the place that belongs to it, and its text is the target that
was read, moved along. The text is the same where only one of source and target is absolute, and
for an absolute source also where the target leads out of it and does not climb after leading
down. -/
theorem cloneTree_relinks {σ : Type} (world : Layer σ) (source dest : String) (uid gid : Int)
    (chunkSize : Option Int) (limits : Limits) (s : σ) :
    ∀ before text path r after,
      (cloneTree source dest uid gid chunkSize limits).trace world s =
        before ++ ⟨.symlink text path, r⟩ :: after →
      ∃ above below name target start, Corresponds source dest above below ∧
        path = Path.join below name ∧
        before = start ++ [⟨.readlink (Path.join above name), .ok target⟩] ∧
        text = Path.remap target source dest ∧
        (source ≠ "" → Path.isAbsolute target ≠ Path.isAbsolute source → text = target) ∧
        (Path.isAbsolute source = true → ¬ Path.LiesIn source target →
          ¬ Path.Climbs source target → text = target) := by
  intro before text path r after same
  have places : PlacesLink source dest before (.symlink text path) :=
    (Yields.run_of_trace (fun _ _ => trivial)
      (cloneTree_placesLinks source dest uid gid chunkSize limits [] trivial).yields_record).2
      before _ after same
  obtain ⟨above, below, name, target, start, pair, own, read, rfl⟩ := places
  exact ⟨above, below, name, target, start, pair, own, read, rfl, Path.remap_unlike,
    fun _ => Path.remap_outside⟩

end Program

end HomeProvision
