import HomeProvision.Proofs.Reported
import HomeProvision.Proofs.Requests
import HomeProvision.Proofs.Status

/-!
# Every entry is accounted for

The report of a clone is read against the trace of its run. Every name that a listing came back with
has one item in the report: its copy, the entry itself as left out, or one failure on either. A
directory that was made but could not be read has one failure more. `Account` says this for the
names of one directory and everything below it, with the items in the order of the walk, and
`cloneTree_accounts` says it for the whole clone, in any world. The number of items follows from it
(`Account.count`).
-/

namespace HomeProvision

/-! ## Items of a report -/

/-- What a report says about an entry. -/
inductive Item where
  | copied (path : String)
  | skipped (path : String)
  | failed (result : StepResult)
  deriving Repr, DecidableEq

namespace Item

/-- The path of a copy. -/
def copied? : Item → Option String
  | copied path => some path
  | _ => none

/-- The path of what was left out. -/
def skipped? : Item → Option String
  | skipped path => some path
  | _ => none

/-- A failure. -/
def failed? : Item → Option StepResult
  | failed result => some result
  | _ => none

/-- Whether an item tells about the entry at `source` whose copy belongs at `dest`. -/
inductive IsFor (source dest : String) : Item → Prop
  | copied : IsFor source dest (.copied dest)
  | skipped : IsFor source dest (.skipped source)
  | failed {result : StepResult} (fails : result.success = false)
      (on : result.path = some source ∨ result.path = some dest) :
      IsFor source dest (.failed result)

/-- Every item is in one of the lists of a report. -/
theorem length_lists (items : List Item) :
    (items.filterMap copied?).length + (items.filterMap skipped?).length +
      (items.filterMap failed?).length = items.length := by
  induction items with
  | nil => rfl
  | cons item rest ih =>
    cases item <;>
      simp only [List.filterMap_cons, copied?, skipped?, failed?, List.length_cons] <;> omega

end Item

/-- A report with more items. -/
def CloneReport.extend (r : CloneReport) (items : List Item) : CloneReport :=
  { r with
    copied := r.copied ++ items.filterMap Item.copied?
    skipped := r.skipped ++ items.filterMap Item.skipped?
    failures := r.failures ++ items.filterMap Item.failed? }

namespace CloneReport

variable {r : CloneReport}

theorem extend_nil (r : CloneReport) : r.extend [] = r := by
  simp only [extend, List.filterMap_nil, List.append_nil]

theorem extend_extend (r : CloneReport) (items items' : List Item) :
    (r.extend items).extend items' = r.extend (items ++ items') := by
  simp only [extend, List.filterMap_append, List.append_assoc]

theorem addCopied_eq (path : String) : r.addCopied path = r.extend [.copied path] := by
  simp [extend, addCopied, Item.copied?, Item.skipped?, Item.failed?]

theorem addSkipped_eq (path : String) : r.addSkipped path = r.extend [.skipped path] := by
  simp [extend, addSkipped, Item.copied?, Item.skipped?, Item.failed?]

theorem addFailure_eq (result : StepResult) : r.addFailure result = r.extend [.failed result] := by
  simp [extend, addFailure, Item.copied?, Item.skipped?, Item.failed?]

/-- A report on a directory that was read adds its items. -/
theorem absorb_opened (path : Option String) (items : List Item) :
    r.absorb (extend { outcome := .ok path } items) = r.extend items := by
  simp [extend, absorb, ownFailure, success, StepResult.success]

/-- A report on a directory that could not be read adds one failure. -/
theorem absorb_closed (path message : String) :
    r.absorb { outcome := .failure .openFile path message } =
      r.extend [.failed (.failure .openFile path message)] := by
  simp [extend, absorb, ownFailure, success, StepResult.success, StepResult.failure,
    StepResult.error, StepResult.path, StepResult.message, Item.copied?, Item.skipped?,
    Item.failed?]

end CloneReport

/-! ## The account of a directory -/

/-- The names of entries in a listing. -/
def entryNames (names : List String) : List String :=
  names.filter fun name => !(name = "." || name = "..")

/-- The names of entries in all listings that went well. -/
def namesListed (t : List Exchange) : List String :=
  (t.filterMap Exchange.listing?).flatMap fun listing => entryNames listing.2

/-- Whether no directory is listed. -/
def NoListing (t : List Exchange) : Prop :=
  ∀ x ∈ t, x.call.isListing = false

/-- Whether a look came back with a directory. -/
def ShowsDirectory (look : Except Fault Status) : Prop :=
  ∃ status mode, look = .ok status ∧ machineMode status.mode = .ok mode ∧
    EntryType.ofBits mode = .directory

/-- How an attempt to read a directory goes that ends with an error: the look at it fails, or else
its listing, and the error is noted. -/
inductive Unopened (source : String) (e : SystemError) : List Exchange → Prop
  | unseen (event : LogEvent) :
      Unopened source e [⟨.stat source, .error (.system e)⟩, ⟨.log event, ()⟩]
  | unlisted (status : Status) (event : LogEvent) :
      Unopened source e
        [⟨.stat source, .ok status⟩, ⟨.list source, .error (.system e)⟩, ⟨.log event, ()⟩]

/-- The account of some names of the directory at `source`, which is copied to `dest`: a trace, the
items on the entries in the order of the walk, and the directories that could not be opened. -/
inductive Account : (source dest : String) → (names : List String) → List Exchange → List Item →
    List String → Prop
  | nil {source dest : String} : Account source dest [] [] [] []
  /-- The names of the directory and its parent are passed over. -/
  | dots {source dest name : String} {names : List String} {t : List Exchange} {items : List Item}
      {closed : List String} (dots : (name = "." || name = "..") = true)
      (rest : Account source dest names t items closed) :
      Account source dest (name :: names) (⟨.pause, .ok ()⟩ :: t) items closed
  /-- An entry that is not entered has one item. -/
  | entry {source dest name : String} {names : List String} {t : List Exchange} {items : List Item}
      {closed : List String} {look : Except Fault Status} {own : List Exchange} {item : Item}
      (proper : ¬ (name = "." || name = "..") = true) (quiet : NoListing own)
      (about : item.IsFor (Path.join source name) (Path.join dest name))
      (plain : item.copied?.isSome = true → ¬ ShowsDirectory look)
      (rest : Account source dest names t items closed) :
      Account source dest (name :: names)
        (⟨.pause, .ok ()⟩ :: ⟨.lstat (Path.join source name), look⟩ :: (own ++ t))
        (item :: items) closed
  /-- A directory that is copied and cannot be opened then has one failure more. -/
  | closed {source dest name : String} {names : List String} {t : List Exchange}
      {items : List Item} {closed : List String} {look : Except Fault Status}
      {own opening : List Exchange} {e : SystemError}
      (proper : ¬ (name = "." || name = "..") = true) (shows : ShowsDirectory look)
      (quiet : NoListing own) (unopened : Unopened (Path.join source name) e opening)
      (rest : Account source dest names t items closed) :
      Account source dest (name :: names)
        (⟨.pause, .ok ()⟩ :: ⟨.lstat (Path.join source name), look⟩ :: (own ++ opening ++ t))
        (.copied (Path.join dest name) ::
          .failed (.failure .openFile (Path.join source name) e.message) :: items)
        (Path.join source name :: closed)
  /-- A directory that is copied and opened has the items of everything below it. -/
  | opened {source dest name : String} {names inside : List String} {t below : List Exchange}
      {items inner : List Item} {closed closedBelow : List String} {look : Except Fault Status}
      {own : List Exchange} {status : Status}
      (proper : ¬ (name = "." || name = "..") = true) (shows : ShowsDirectory look)
      (quiet : NoListing own)
      (entered : Account (Path.join source name) (Path.join dest name) inside below inner
        closedBelow)
      (rest : Account source dest names t items closed) :
      Account source dest (name :: names)
        (⟨.pause, .ok ()⟩ :: ⟨.lstat (Path.join source name), look⟩ ::
          (own ++ ⟨.stat (Path.join source name), .ok status⟩ ::
            ⟨.list (Path.join source name), .ok inside⟩ :: below ++ t))
        (.copied (Path.join dest name) :: inner ++ items) (closedBelow ++ closed)

/-! ## Counting -/

theorem namesListed_append (t t' : List Exchange) :
    namesListed (t ++ t') = namesListed t ++ namesListed t' := by
  unfold namesListed
  rw [List.filterMap_append, List.flatMap_append]

theorem namesListed_cons {x : Exchange} (t : List Exchange) (other : x.listing? = none) :
    namesListed (x :: t) = namesListed t := by
  unfold namesListed
  rw [List.filterMap_cons, other]

theorem namesListed_listed (path : String) (names : List String) (t : List Exchange) :
    namesListed (⟨.list path, .ok names⟩ :: t) = entryNames names ++ namesListed t :=
  rfl

theorem NoListing.namesListed {t : List Exchange} (quiet : NoListing t) : namesListed t = [] := by
  induction t with
  | nil => rfl
  | cons x rest ih =>
    have other : x.listing? = none := by
      have unlisted := quiet x List.mem_cons_self
      obtain ⟨c, r⟩ := x
      cases c <;> first | rfl | cases unlisted
    rw [namesListed_cons rest other]
    exact ih fun y mem => quiet y (List.mem_cons_of_mem _ mem)

theorem Unopened.namesListed {source : String} {e : SystemError} {t : List Exchange}
    (h : Unopened source e t) : namesListed t = [] := by
  cases h <;> rfl

theorem entryNames_dots {name : String} (names : List String)
    (dots : (name = "." || name = "..") = true) :
    entryNames (name :: names) = entryNames names := by
  unfold entryNames
  rw [List.filter_cons_of_neg]
  rw [dots]
  decide

theorem entryNames_cons {name : String} (names : List String)
    (proper : ¬ (name = "." || name = "..") = true) :
    entryNames (name :: names) = name :: entryNames names := by
  unfold entryNames
  rw [List.filter_cons_of_pos]
  simpa using proper

/-- There is one item for every name, here and below, and one for every directory that could not be
opened. -/
theorem Account.count {source dest : String} {names : List String} {t : List Exchange}
    {items : List Item} {closed : List String} (h : Account source dest names t items closed) :
    items.length = (entryNames names).length + (namesListed t).length + closed.length := by
  induction h with
  | nil => rfl
  | dots dots rest ih =>
    rw [entryNames_dots _ dots, namesListed_cons _ rfl]
    exact ih
  | entry proper quiet about plain rest ih =>
    rw [entryNames_cons _ proper, namesListed_cons _ rfl, namesListed_cons _ rfl,
      namesListed_append, quiet.namesListed]
    simp only [List.length_cons, List.nil_append]
    omega
  | closed proper shows quiet unopened rest ih =>
    rw [entryNames_cons _ proper, namesListed_cons _ rfl, namesListed_cons _ rfl,
      namesListed_append, namesListed_append, quiet.namesListed,
      unopened.namesListed]
    simp only [List.length_cons, List.nil_append]
    omega
  | opened proper shows quiet entered rest ihEntered ih =>
    rw [entryNames_cons _ proper, namesListed_cons _ rfl, namesListed_cons _ rfl,
      namesListed_append, namesListed_append, quiet.namesListed,
      namesListed_cons _ rfl, namesListed_listed]
    simp only [List.length_cons, List.length_append, List.nil_append]
    omega

/-! ## One entry -/

/-- The account of one entry, from the look at it on. -/
inductive Told (source dest : String) (look : Except Fault Status) :
    List Exchange → List Item → List String → Prop
  | entry {own : List Exchange} {item : Item} (quiet : NoListing own)
      (about : item.IsFor source dest)
      (plain : item.copied?.isSome = true → ¬ ShowsDirectory look) :
      Told source dest look own [item] []
  | closed {own opening : List Exchange} {e : SystemError} (shows : ShowsDirectory look)
      (quiet : NoListing own) (unopened : Unopened source e opening) :
      Told source dest look (own ++ opening)
        [.copied dest, .failed (.failure .openFile source e.message)] [source]
  | opened {inside : List String} {own below : List Exchange} {inner : List Item}
      {closedBelow : List String} {status : Status} (shows : ShowsDirectory look)
      (quiet : NoListing own) (entered : Account source dest inside below inner closedBelow) :
      Told source dest look
        (own ++ ⟨.stat source, .ok status⟩ :: ⟨.list source, .ok inside⟩ :: below)
        (.copied dest :: inner) closedBelow

section

variable {source dest : String} {look : Except Fault Status} {t t' : List Exchange}
  {items items' : List Item} {closed closed' : List String}

theorem noListing_single {x : Exchange} (other : x.call.isListing = false) : NoListing [x] :=
  List.forall_mem_singleton.mpr other

theorem NoListing.append (first : NoListing t) (second : NoListing t') : NoListing (t ++ t') :=
  List.forall_mem_append.mpr ⟨first, second⟩

theorem Told.after (quiet : NoListing t) (h : Told source dest look t' items closed) :
    Told source dest look (t ++ t') items closed := by
  cases h with
  | entry quiet' about plain => exact .entry (quiet.append quiet') about plain
  | closed shows quiet' unopened =>
    rw [← List.append_assoc]
    exact .closed shows (quiet.append quiet') unopened
  | opened shows quiet' entered =>
    rw [← List.append_assoc]
    exact .opened shows (quiet.append quiet') entered

/-- An entry and the entries after it. -/
theorem Account.cons {name : String} {names : List String}
    (proper : ¬ (name = "." || name = "..") = true)
    (h : Told (Path.join source name) (Path.join dest name) look t items closed)
    (rest : Account source dest names t' items' closed') :
    Account source dest (name :: names)
      (⟨.pause, .ok ()⟩ :: ⟨.lstat (Path.join source name), look⟩ :: (t ++ t'))
      (items ++ items') (closed ++ closed') := by
  cases h with
  | entry quiet about plain => exact .entry proper quiet about plain rest
  | closed shows quiet unopened => exact .closed proper shows quiet unopened rest
  | opened shows quiet entered => exact .opened proper shows quiet entered rest

end

/-! ## Results of the parts -/

namespace Program

variable {α σ : Type}

/-- Whether a step went well, or failed on the entry or on its copy. -/
def Concerns (source dest : String) (result : StepResult) : Prop :=
  result.success = true ∨ result.path = some source ∨ result.path = some dest

theorem Concerns.firstFailure {source dest : String} {result : StepResult}
    (start : Concerns source dest result) (kind : FailureKind) (e : SystemError) :
    Concerns source dest (firstFailure result kind dest e) := by
  unfold Program.firstFailure
  split
  · exact .inr (.inr rfl)
  · exact start

theorem finishOwner_returns {c : Cloner} {source dest : String} {result : StepResult}
    (start : Concerns source dest result) :
    (finishOwner c dest result).Returns (Concerns source dest) := by
  refine .after fun owned => ?_
  cases owned with
  | ok _ => exact start
  | error e => exact .after fun _ => start.firstFailure .chown e

theorem finishMode_returns {source dest : String} {mode : Int} {result : StepResult}
    (start : Concerns source dest result) :
    (finishMode dest mode result).Returns (Concerns source dest) := by
  refine .after fun moded => ?_
  cases moded with
  | ok _ => exact start
  | error e => exact .after fun _ => start.firstFailure .chmod e

theorem stream_returns (c : Cloner) (source dest : String) (reading writing : Int) :
    (stream c reading writing dest).Returns (Concerns source dest) := by
  refine (Returns.attempt (?_ : Returns (Concerns source dest) _)).bind fun result good => ?_
  · refine .after fun copied => ?_
    cases copied with
    | none => exact .inl rfl
    | some short => exact .after fun _ => .inr (.inr rfl)
  · cases result with
    | ok result => exact good result rfl
    | error e => exact .after fun _ => .inr (.inr rfl)

theorem fillFile_returns (c : Cloner) (source dest : String) (reading writing mode : Int) :
    (fillFile c reading writing dest mode).Returns (Concerns source dest) := by
  have filled : ((stream c reading writing dest).bind fun result =>
      (finishOwner c dest result).bind (finishMode dest mode)).Returns (Concerns source dest) :=
    (stream_returns c source dest reading writing).bind fun _ good =>
      (finishOwner_returns good).bind fun _ good => finishMode_returns good
  refine .after fun cut => ?_
  cases cut with
  | ok _ => exact filled.ensuring
  | error e => exact .after fun _ => filled.ensuring

theorem copyFile_returns (c : Cloner) (source dest : String) (mode : Int) :
    (copyFile c source dest mode).Returns (Concerns source dest) := by
  refine .after fun opened => ?_
  cases opened with
  | error e => exact .after fun _ => .inr (.inl rfl)
  | ok reading =>
    refine Returns.ensuring (.after fun created => ?_)
    cases created with
    | error e => exact .after fun _ => .inr (.inr rfl)
    | ok writing => exact fillFile_returns c source dest reading writing mode

theorem placeLink_returns (c : Cloner) (source dest target : String) :
    (placeLink c target dest).Returns (Concerns source dest) := by
  refine .after fun placed => ?_
  cases placed with
  | error e => exact .after fun _ => .inr (.inr rfl)
  | ok _ =>
    refine .after fun owned => ?_
    cases owned with
    | ok _ => exact .inl rfl
    | error e => exact .after fun _ => .inl rfl

theorem copySymlink_returns (c : Cloner) (sourceTop source destTop dest : String)
    (target : Option String) :
    (copySymlink c sourceTop source destTop dest target).Returns (Concerns source dest) := by
  cases target with
  | some target => exact placeLink_returns c source dest _
  | none =>
    refine .after fun target => ?_
    cases target with
    | error e => exact .after fun _ => .inr (.inl rfl)
    | ok target => exact placeLink_returns c source dest _

theorem ensureDirectory_returns (source dest : String) (uid gid mode : Int) :
    (ensureDirectory dest uid gid mode).Returns (Concerns source dest) := by
  refine .after fun looked => ?_
  cases looked with
  | ok _ => exact .after fun _ => .inl rfl
  | error e =>
    dsimp only
    split
    · have creates : (withClearMask (createDirectory dest mode)).Returns fun made =>
          ∀ result, made = some result → Concerns source dest result := by
        refine .after fun mask => Returns.ensuring (.after fun made => ?_)
        cases made with
        | ok _ => exact fun _ bad => by cases bad
        | error e =>
          dsimp only
          split
          · exact .after fun _ _ same => by cases same; exact .inl rfl
          · exact .after fun _ _ same => by cases same; exact .inr (.inr rfl)
      refine creates.bind fun made good => ?_
      cases made with
      | some result => exact good result rfl
      | none =>
        refine .after fun owned => ?_
        cases owned with
        | ok _ => exact .after fun _ => .inl rfl
        | error e => exact .after fun _ => .after fun _ => .inl rfl
    · exact .after fun _ => .inr (.inr rfl)

/-! ## Calls of the parts -/

/-- No part of copying an entry lists a directory. -/
theorem unlisted : EntryParts (τ := Unit) (fun _ _ _ _ => True) (fun c _ => c.isListing = false)
    fun _ => True :=
  .of_calls fun _ _ _ other _ => ⟨other, fun _ _ _ => trivial⟩

theorem unlisted_yields {p : Program α}
    (calls : p.Keeps (τ := Unit) (fun _ _ _ _ => True) (fun c _ => c.isListing = false)
      fun _ => True) :
    p.Yields (fun _ _ => True) fun _ t => NoListing t :=
  have quiet := Yields.of_guard calls
  quiet

/-- A part of copying an entry: no directory is listed in its trace, and its results are good. -/
theorem part_yields {p : Program α} {good : α → Prop}
    (calls : p.Keeps (τ := Unit) (fun _ _ _ _ => True) (fun c _ => c.isListing = false)
      fun _ => True)
    (results : p.Returns good) :
    p.Yields (fun _ _ => True) fun out t => NoListing t ∧ ∀ a, out = .ok a → good a :=
  (unlisted_yields calls).returns results

/-! ## The walk -/

/-- Whether the state after a step has the report before with some items more, and what they are. -/
def Tells (report : CloneReport) (told : List Item → List String → Prop)
    (out : Except Fault WalkState) : Prop :=
  ∀ state, out = .ok state → ∃ items closed, state.1 = report.extend items ∧ told items closed

theorem Tells.error {report : CloneReport} {told : List Item → List String → Prop} (f : Fault) :
    Tells report told (.error f) :=
  fun _ bad => by cases bad

theorem Tells.ok {report : CloneReport} {told : List Item → List String → Prop}
    {items : List Item} (closed : List String) {state : WalkState}
    (same : state.1 = report.extend items) (holds : told items closed) :
    Tells report told (.ok state) :=
  fun _ done => by cases done; exact ⟨items, closed, same, holds⟩

/-- The item that is recorded for a file or a link. -/
theorem recorded (report : CloneReport) {source dest : String} {result : StepResult}
    (good : Concerns source dest result) :
    ∃ item : Item, item.IsFor source dest ∧ report.record result dest = report.extend [item] := by
  unfold CloneReport.record
  cases success : result.success with
  | true => exact ⟨.copied dest, .copied, CloneReport.addCopied_eq dest⟩
  | false =>
    refine ⟨.failed result, .failed success (good.resolve_left ?_),
      CloneReport.addFailure_eq result⟩
    rw [success]
    decide

/-- Describing an entry begins with a look at it, and says truly whether that showed a directory. -/
theorem describeEntry_looks (name path : String) :
    (describeEntry name path).Yields (fun _ _ => True) fun out t =>
      ∃ look own, t = ⟨.lstat path, look⟩ :: own ∧ NoListing own ∧
        ∀ entry, out = .ok entry → entry.path = path ∧
          (entry.type = .directory ↔ ShowsDirectory look) := by
  intro look _
  cases look with
  | error f =>
    exact ⟨_, [], rfl, fun _ mem => absurd mem List.not_mem_nil, fun _ bad => by cases bad⟩
  | ok status =>
    change Yields _ ((ofRange (Entry.ofStatus name path status)).bind _) _
    unfold Entry.ofStatus
    cases valid : machineMode status.mode with
    | error e =>
      exact ⟨_, [], rfl, fun _ mem => absurd mem List.not_mem_nil, fun _ bad => by cases bad⟩
    | ok mode =>
      have shows : EntryType.ofBits mode = .directory ↔ ShowsDirectory (.ok status) := by
        refine ⟨fun directory => ⟨status, mode, rfl, valid, directory⟩, ?_⟩
        rintro ⟨_, mode', same, valid', directory⟩
        cases same
        rw [valid] at valid'
        cases valid'
        exact directory
      change Yields _ (if _ then _ else _) _
      split
      · intro target _
        have quiet : NoListing [⟨.readlink path, target⟩] := noListing_single rfl
        cases target with
        | ok target =>
          exact ⟨_, _, rfl, quiet, fun entry same => by cases same; exact ⟨rfl, shows⟩⟩
        | error f =>
          cases f with
          | system e =>
            exact ⟨_, _, rfl, quiet, fun entry same => by cases same; exact ⟨rfl, shows⟩⟩
          | _ => exact ⟨_, _, rfl, quiet, fun entry bad => by cases bad⟩
      · refine ⟨_, [], rfl, fun _ mem => absurd mem List.not_mem_nil, fun entry same => ?_⟩
        cases same
        exact ⟨rfl, shows⟩

/-- What comes of copying the content of a directory: it could not be opened, or there is an account
of all names in it. -/
inductive Toured (source dest : String) :
    List Exchange → CloneReport → List Item → List String → Prop
  | closed {t : List Exchange} {e : SystemError} (unopened : Unopened source e t) :
      Toured source dest t { outcome := .failure .openFile source e.message } [] []
  | opened {names : List String} {t : List Exchange} {items : List Item} {closed : List String}
      (status : Status) (account : Account source dest names t items closed) :
      Toured source dest (⟨.stat source, .ok status⟩ :: ⟨.list source, .ok names⟩ :: t)
        (CloneReport.extend { outcome := .ok (some source) } items) items closed

/-- What the report on a directory adds to that on the directory above. -/
theorem Toured.absorbed {source dest : String} {look : Except Fault Status}
    {own t : List Exchange} {inner : CloneReport} {items : List Item} {closed : List String}
    (h : Toured source dest t inner items closed) (shows : ShowsDirectory look)
    (quiet : NoListing own) (report : CloneReport) :
    ∃ items closed, (report.addCopied dest).absorb inner = report.extend items ∧
      Told source dest look (own ++ t) items closed := by
  rw [CloneReport.addCopied_eq]
  cases h with
  | closed unopened =>
    refine ⟨_, _, ?_, .closed shows quiet unopened⟩
    rw [CloneReport.absorb_closed, CloneReport.extend_extend]
    rfl
  | opened status account =>
    refine ⟨_, _, ?_, .opened shows quiet account⟩
    rw [CloneReport.absorb_opened, CloneReport.extend_extend]
    rfl

section

variable {w : Walk} {descend : String → String → List Identity → Program WalkState}
  (below : ∀ source dest entered, (descend source dest entered).Yields (fun _ _ => True)
    fun out t => ∀ state, out = .ok state → ∃ items closed,
      Toured source dest t state.1 items closed)
include below

theorem cloneSubdirectory_accounts {look : Except Fault Status} (shows : ShowsDirectory look)
    (entry : Entry) (dest : String) (state : WalkState) :
    (cloneSubdirectory w descend entry dest state).Yields (fun _ _ => True) fun out t =>
      Tells state.1 (Told entry.path dest look t) out := by
  obtain ⟨report, entered⟩ := state
  unfold cloneSubdirectory
  dsimp only
  split
  · exact fun r _ => Tells.ok [] (CloneReport.addSkipped_eq entry.path)
      (.entry (noListing_single rfl) .skipped (by simp [Item.copied?]))
  · refine (unlisted_yields (unlisted.isPlantedNonDirectory dest)).bind
      (fun planted t₁ quiet => ?_) fun f _ _ => Tells.error f
    split
    · refine Tells.ok [] (CloneReport.addFailure_eq _) ?_
      rw [List.append_nil]
      exact .entry quiet (.failed rfl (.inr rfl)) (by simp [Item.copied?])
    · refine (part_yields (unlisted.directory dest _ _ _)
        (ensureDirectory_returns entry.path dest _ _ _)).bind (fun created t₂ made => ?_)
        fun f _ _ => Tells.error f
      have before := quiet.append made.1
      cases success : created.success with
      | false =>
        refine Tells.ok [] (CloneReport.addFailure_eq _) ?_
        rw [List.append_nil]
        refine .entry before (.failed success ((made.2 created rfl).resolve_left ?_))
          (by simp [Item.copied?])
        rw [success]
        decide
      | true =>
        refine (below entry.path dest entered).bind (fun inner t₃ reached => ?_)
          fun f _ _ => Tells.error f
        obtain ⟨_, _, toured⟩ := reached inner rfl
        obtain ⟨items, closed, same, told⟩ := toured.absorbed shows before report
        refine Tells.ok closed same ?_
        rw [List.append_nil, ← List.append_assoc]
        exact told

theorem cloneEntry_accounts (name source dest : String) (state : WalkState) :
    (cloneEntry w descend name source dest state).Yields (fun _ _ => True) fun out t =>
      ∃ look own, t = ⟨.lstat source, look⟩ :: own ∧
        Tells state.1 (Told source dest look own) out := by
  refine Yields.attempt (describeEntry_looks name source) ?_ ?_ ?_
  · rintro entry t ⟨look, own, rfl, quiet, described⟩
    obtain ⟨rfl, directory⟩ := described entry rfl
    suffices rest : Yields (fun _ _ => True) _ fun out t' =>
        Tells state.1 (Told entry.path dest look (own ++ t')) out from
      Yields.mono rest fun out t' told => ⟨look, own ++ t', rfl, told⟩
    -- a file or a link has the one item that its result is recorded as
    have copies : ∀ {p : Program StepResult}, ¬ ShowsDirectory look →
        (p.Yields (fun _ _ => True) fun out t => NoListing t ∧
          ∀ result, out = .ok result → Concerns entry.path dest result) →
        (p.bind fun result => done (state.1.record result dest, state.2)).Yields
          (fun _ _ => True) fun out t' =>
            Tells state.1 (Told entry.path dest look (own ++ t')) out := by
      intro p other copied
      refine copied.bind (fun result t' made => ?_) fun f _ _ => Tells.error f
      obtain ⟨item, about, same⟩ := recorded state.1 (made.2 result rfl)
      refine Tells.ok [] same ?_
      rw [List.append_nil]
      exact .entry (quiet.append made.1) about fun _ => other
    dsimp only
    split
    · next type =>
      exact Yields.mono (cloneSubdirectory_accounts below (directory.mp type) entry dest state)
        fun out t' told state' done =>
          let ⟨items, closed, same, told⟩ := told state' done
          ⟨items, closed, same, told.after quiet⟩
    · next type =>
      refine copies (fun shows => ?_)
        (part_yields (unlisted.file _ _ _ _) (copyFile_returns _ entry.path dest _))
      rw [directory.mpr shows] at type
      cases type
    · next type =>
      refine copies (fun shows => ?_)
        (part_yields (unlisted.copySymlink _ _ _ _ _ _)
          (copySymlink_returns _ _ entry.path _ dest _))
      rw [directory.mpr shows] at type
      cases type
    · next type =>
      exact fun _ _ => Tells.ok [] (CloneReport.addSkipped_eq entry.path)
        (.entry (quiet.append (noListing_single rfl)) .skipped (by simp [Item.copied?]))
  · rintro e t ⟨look, own, rfl, quiet, -⟩
    exact fun _ _ => ⟨look, _, rfl, Tells.ok [] (CloneReport.addFailure_eq _)
      (.entry (quiet.append (noListing_single rfl)) (.failed rfl (.inl rfl))
        (by simp [Item.copied?]))⟩
  · rintro f t - ⟨look, own, rfl, -, -⟩
    exact ⟨look, own, rfl, Tells.error f⟩

theorem cloneNames_accounts (source dest : String) (names : List String) (state : WalkState) :
    (cloneNames w descend source dest names state).Yields (fun _ _ => True) fun out t =>
      Tells state.1 (Account source dest names t) out := by
  induction names generalizing state with
  | nil => exact Tells.ok [] (CloneReport.extend_nil _).symm .nil
  | cons name rest ih =>
    intro hook _
    cases hook with
    | error f => exact Tells.error f
    | ok _ =>
      change Yields _ (if _ then _ else _) _
      split
      · next dots =>
        refine Yields.mono (ih state) fun out t told state' done => ?_
        obtain ⟨items, closed, same, account⟩ := told state' done
        exact ⟨items, closed, same, .dots dots account⟩
      · next proper =>
        refine (cloneEntry_accounts below name _ _ state).bind (fun state₁ t entry => ?_)
          fun f _ _ => Tells.error f
        obtain ⟨look, own, rfl, told⟩ := entry
        obtain ⟨items, closed, same, told⟩ := told state₁ rfl
        refine Yields.mono (ih state₁) fun out t' rest state' done => ?_
        obtain ⟨items', closed', same', account⟩ := rest state' done
        rw [same, CloneReport.extend_extend] at same'
        exact ⟨items ++ items', closed ++ closed', same', .cons proper told account⟩

end

/-- The first two calls on a directory. -/
theorem opening_begins (source : String) :
    (do
      let status ← stat source
      return (status, ← list source) : Program (Status × List String)).Yields (fun _ _ => True)
      fun out t => (∀ status names, out = .ok (status, names) →
          t = [⟨.stat source, .ok status⟩, ⟨.list source, .ok names⟩]) ∧
        ∀ e event, out = .error (.system e) → Unopened source e (t ++ [⟨.log event, ()⟩]) := by
  intro look _
  cases look with
  | error f =>
    exact ⟨fun _ _ bad => (by cases bad), fun e event same => by cases same; exact .unseen event⟩
  | ok status =>
    intro listing _
    cases listing with
    | error f =>
      exact ⟨fun _ _ bad => (by cases bad), fun e event same => by
        cases same; exact .unlisted status event⟩
    | ok names =>
      exact ⟨fun _ _ same => (by cases same; rfl), fun e event bad => by cases bad⟩

/-- Copying the content of a directory is accounted for, and so is everything below it. -/
theorem cloneDirectory_accounts (w : Walk) (depth : Nat) (source dest : String)
    (entered : List Identity) :
    (cloneDirectory w depth source dest entered).Yields (fun _ _ => True) fun out t =>
      ∀ state, out = .ok state → ∃ items closed, Toured source dest t state.1 items closed := by
  induction depth generalizing source dest entered with
  | zero => exact fun _ bad => by cases bad
  | succ depth ih =>
    refine Yields.attempt (opening_begins source) ?_ ?_ ?_
    · rintro ⟨status, names⟩ t ⟨opened, -⟩
      obtain rfl := opened status names rfl
      refine Yields.mono (cloneNames_accounts ih source dest names _)
        fun out t' told state done => ?_
      obtain ⟨items, closed, same, account⟩ := told state done
      exact ⟨items, closed, same ▸ .opened status account⟩
    · rintro e t ⟨-, unopened⟩
      exact fun _ _ state done => ⟨[], [], by cases done; exact .closed (unopened e _ rfl)⟩
    · exact fun f _ _ _ _ bad => by cases bad

theorem Toured.count {source dest : String} {t : List Exchange} {report : CloneReport}
    {items : List Item} {closed : List String} (h : Toured source dest t report items closed) :
    report.copied.length + report.skipped.length + report.failures.length =
      (namesListed t).length + closed.length := by
  cases h with
  | closed unopened =>
    rw [unopened.namesListed]
    rfl
  | opened status account =>
    rw [namesListed_cons _ rfl, namesListed_listed, List.length_append, ← account.count,
      ← Item.length_lists items]
    rfl

/-- Every entry is accounted for exactly once. In any world, the report of a clone tells of every
name that was listed in the course of it, in the order of the walk, and of the directories that were
made and could not be opened; so the number of its items is known. Where calls fail only with errors
of the system, and the mask and the hook not at all, nothing but the limits of the walk can keep the
report from coming. -/
theorem cloneTree_accounts (world : Layer σ) (source dest : String) (uid gid : Int)
    (chunkSize : Option Int) (limits : Limits) (s : σ) :
    (∀ report, ((cloneTree source dest uid gid chunkSize limits).run world s).1 = .ok report →
      ∃ look walk items closed,
        (cloneTree source dest uid gid chunkSize limits).trace world s =
          ⟨.stat dest, look⟩ :: walk ∧
        Toured source dest walk report items closed ∧
        report.copied.length + report.skipped.length + report.failures.length =
          (namesListed ((cloneTree source dest uid gid chunkSize limits).trace world s)).length +
            closed.length) ∧
    ((∀ x ∈ (cloneTree source dest uid gid chunkSize limits).trace world s,
        Orderly x.call x.reply) →
      ∀ f, ((cloneTree source dest uid gid chunkSize limits).run world s).1 = .error f →
        f = .limit) := by
  have accounts : (cloneTree source dest uid gid chunkSize limits).Yields (fun _ _ => True)
      fun out t => ∀ report, out = .ok report → ∃ look walk items closed,
        t = ⟨.stat dest, look⟩ :: walk ∧ Toured source dest walk report items closed := by
    have walked : ∀ w look, ((cloneDirectory w limits.depth source dest []).bind fun state =>
        done state.1).Yields (fun _ _ => True) fun out t => ∀ report, out = .ok report →
          ∃ look' walk items closed, ⟨.stat dest, look⟩ :: t = ⟨.stat dest, look'⟩ :: walk ∧
            Toured source dest walk report items closed := by
      intro w look
      refine (cloneDirectory_accounts w limits.depth source dest []).bind
        (fun state t reached report done => ?_) fun f _ _ _ bad => (by cases bad)
      cases done
      obtain ⟨items, closed, toured⟩ := reached state rfl
      rw [List.append_nil]
      exact ⟨look, t, items, closed, rfl, toured⟩
    intro look _
    cases look with
    | ok status => exact walked _ _
    | error f =>
      cases f with
      | system e => exact walked _ _
      | _ => exact fun _ bad => by cases bad
  refine ⟨fun report ends => ?_, fun fair f failed => ?_⟩
  · obtain ⟨look, walk, items, closed, split, toured⟩ :=
      accounts.run (fun _ _ => trivial) report ends
    refine ⟨look, walk, items, closed, split, toured, ?_⟩
    rw [split, namesListed_cons _ rfl]
    exact toured.count
  · exact ((cloneTree_yields source dest uid gid chunkSize limits).run_of_trace fair).1 f failed

/-- A skeleton with a directory that cannot be listed. -/
theorem cloneTree_accounts_unlisted :
    let world := Machine.refusing (fun c => decide (c = .list "/skel/d"))
      (Machine.refused "/skel/d" .inputOutput)
    let work := cloneTree "/skel" "/home" 7 7 none { depth := 3, pieces := 3 }
    ∃ report look walk items closed,
      (work.run world Machine.sample).1 = .ok report ∧
      report.copied = ["/home/d", "/home/f", "/home/l"] ∧
      work.trace world Machine.sample = ⟨.stat "/home", look⟩ :: walk ∧
      Toured "/skel" "/home" walk report items closed ∧
      report.copied.length + report.skipped.length + report.failures.length =
        (namesListed (work.trace world Machine.sample)).length + closed.length := by
  intro world work
  have ends : (work.run world Machine.sample).1 = .ok
      { outcome := .ok (some "/skel")
        copied := ["/home/d", "/home/f", "/home/l"]
        failures := [.failure .openFile "/skel/d"
          (Machine.refused "/skel/d" .inputOutput).message] } := by
    decide
  obtain ⟨look, walk, items, closed, split, toured, count⟩ :=
    (cloneTree_accounts world "/skel" "/home" 7 7 none { depth := 3, pieces := 3 }
      Machine.sample).1 _ ends
  exact ⟨_, look, walk, items, closed, ends, rfl, split, toured, count⟩

end Program

end HomeProvision
