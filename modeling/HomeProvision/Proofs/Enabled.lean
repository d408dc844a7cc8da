import HomeProvision.Command.Run
import HomeProvision.Proofs.Change
import HomeProvision.Proofs.Disturbance
import HomeProvision.Proofs.Overridden
import HomeProvision.Proofs.Places
import HomeProvision.Proofs.Window

/-!
# Nothing happens unless it is enabled

Before the command starts to create a home it only inquires: it looks at the configuration file,
reads it, looks the user up and notes events (`Call.isInquiry`), and such calls leave the machine as
it is. A run that goes further is one whose settings are enabled, by the switch on the command line
or by the file (`runOptions_enabled`), and it neither ends with the exit code for refusals nor
prints a result that says it was skipped. So whoever sees one of these ends knows that nothing has
happened (`run_idle`).

That a printed report was made from a result that says so can be read off the report itself, since a
text in it ends at its first quote that is not escaped (`afterText_escaped`).
-/

namespace HomeProvision

open HomeProvision.Text HomeProvision.Command

/-! ## Reading a report -/

namespace Text

/-- What follows the closing quote of a written text. -/
def Json.afterText : List Char → List Char
  | [] => []
  | '"' :: rest => rest
  | '\\' :: _ :: rest => afterText rest
  | _ :: rest => afterText rest

theorem Json.afterText_plain {c : Char} (plain : c ≠ '"' ∧ c ≠ '\\') (rest : List Char) :
    afterText (c :: rest) = afterText rest := by
  simp [afterText, plain.1, plain.2]

theorem Json.afterText_append {cs : List Char} (plain : ∀ c ∈ cs, c ≠ '"' ∧ c ≠ '\\')
    (rest : List Char) : afterText (cs ++ rest) = afterText rest := by
  induction cs with
  | nil => rfl
  | cons c cs ih =>
    rw [List.cons_append, afterText_plain (plain c List.mem_cons_self),
      ih fun d mem => plain d (List.mem_cons_of_mem _ mem)]

theorem hexDigits_plain (width n : Nat) : ∀ c ∈ hexDigits width n, c ≠ '"' ∧ c ≠ '\\' := by
  have each : ∀ d < 16, hexDigit d ≠ '"' ∧ hexDigit d ≠ '\\' := by decide
  induction width generalizing n with
  | zero => exact fun _ mem => absurd mem List.not_mem_nil
  | succ width ih =>
    intro c mem
    rcases List.mem_append.mp mem with mem | mem
    · exact ih _ c mem
    · rw [List.mem_singleton.mp mem]
      exact each _ (Nat.mod_lt n (by decide))

theorem Json.afterText_unitEscape (n : Nat) (rest : List Char) :
    afterText (unitEscape n ++ rest) = afterText rest :=
  afterText_append (hexDigits_plain 4 n) rest

/-- No character as it stands in a text ends the text. -/
theorem Json.afterText_escape (c : Char) (rest : List Char) :
    afterText (escape c ++ rest) = afterText rest := by
  unfold escape
  split
  · rfl
  next ordinary =>
    have plain : c ≠ '"' ∧ c ≠ '\\' := by simpa using ordinary
    repeat' split
    iterate 5 rfl
    · exact afterText_plain plain rest
    · unfold codeEscapes
      dsimp only
      split
      · exact afterText_unitEscape _ rest
      · rw [List.append_assoc, afterText_unitEscape, afterText_unitEscape]

/-- A written text ends where it was made to end, whatever is in it. -/
theorem Json.afterText_escaped (cs rest : List Char) :
    afterText (cs.flatMap escape ++ '"' :: rest) = rest := by
  induction cs with
  | nil => rfl
  | cons c cs ih => rw [List.flatMap_cons, List.append_assoc, afterText_escape, ih]

end Text

namespace ProvisionResult

/-- The first fields of a result on a page. -/
theorem page_eq (r : ProvisionResult) :
    ∃ rest, r.json.page.toList =
      "\x7b\n  \"success\": ".toList ++ ((Json.bool r.success).line.toList ++
        (",\n  \"target_path\": \"".toList ++ (r.target.toList.flatMap Json.escape ++
          '"' :: (",\n  \"skipped\": ".toList ++
            ((Json.bool r.skipped).line.toList ++ rest))))) := by
  unfold json Json.page
  simp [Json.write, Json.writeEntries, Json.Layout.enclose, Json.Layout.newLine,
    Json.Layout.between, String.intercalate_cons_cons, Json.quote, Json.line, Json.escape]

/-- A page says whether the result was skipped, whatever the target is. -/
theorem skipped_of_page {r r' : ProvisionResult} (same : r.json.page = r'.json.page) :
    r.skipped = r'.skipped := by
  have word : ∀ (b b' : Bool) (rest rest' : List Char),
      (Json.bool b).line.toList ++ rest = (Json.bool b').line.toList ++ rest' →
        b = b' ∧ rest = rest' := by
    intro b b' rest rest'
    cases b <;> cases b' <;> simp [Json.line, Json.write]
  obtain ⟨rest, page⟩ := r.page_eq
  obtain ⟨rest', page'⟩ := r'.page_eq
  rw [same, page'] at page
  obtain ⟨-, page⟩ := word _ _ _ _ (List.append_cancel_left page)
  have after := congrArg Json.afterText (List.append_cancel_left page)
  rw [Json.afterText_escaped, Json.afterText_escaped] at after
  exact (word _ _ _ _ (List.append_cancel_left after)).1.symm

end ProvisionResult

/-! ## Inquiries -/

/-- Whether a call only looks at a file, looks a user up or notes an event. -/
def Call.isInquiry : Call → Bool
  | .stat _ | .readFile _ | .lookupUser _ | .log _ => true
  | _ => false

/-- An inquiry leaves the machine as it is, whether it is answered or fails. -/
theorem Machine.Disturbed.of_isInquiry {spared : Call → Prop} {c : Call} {m m' : Machine}
    {r : c.Reply} (h : Machine.Disturbed spared c m r m') (inquiry : c.isInquiry = true) :
    m' = m := by
  have own : ∀ c : Call, c.isInquiry = true → c.isForeign = false := by
    intro c inquiry
    cases c <;> first | rfl | cases inquiry
  cases h with
  | answered => cases c <;> first | rfl | cases inquiry
  | failed => rfl
  | foreign r foreign same =>
    rw [own c inquiry] at foreign
    cases foreign

namespace Program

variable {α β σ τ : Type} {world : Layer σ} {s : σ}

/-- What a kind of call leaves as it is, a run leaves as it is that makes only such calls. -/
theorem run_still {view : σ → τ} {still : Call → Prop}
    (keeps : ∀ c s, still c → view (world.reply c s).2 = view s) {p : Program α}
    (calls : ∀ x ∈ p.trace world s, still x.call) : view (p.run world s).2 = view s := by
  induction p generalizing s with
  | done a => rfl
  | raise f => rfl
  | call c next ih =>
    obtain ⟨here, onward⟩ := List.forall_mem_cons.mp calls
    exact (ih _ onward).trans (keeps c s here)

/-- Whether a program only inquires, whatever the replies are. -/
abbrev Inquires (p : Program α) : Prop :=
  p.Makes (fun _ _ => True) fun c => c.isInquiry = true

theorem Inquires.trace {p : Program α} (h : p.Inquires) :
    ∀ x ∈ p.trace world s, x.call.isInquiry = true := by
  have any : world.Allows fun _ _ => True := fun _ _ => trivial
  exact Yields.run any (Yields.of_guard h)

theorem mem_trace_bind {p : Program α} {k : α → Program β} {x : Exchange}
    (mem : x ∈ (p.bind k).trace world s) :
    x ∈ p.trace world s ∨ ∃ a s', p.run world s = (.ok a, s') ∧ x ∈ (k a).trace world s' := by
  rw [trace_bind] at mem
  refine (List.mem_append.mp mem).imp_right fun mem => ?_
  cases run : p.run world s with
  | mk out s' =>
    rw [run] at mem
    cases out with
    | ok a => exact ⟨a, s', rfl, mem⟩
    | error f => cases mem

/-- What is no inquiry comes after a program that only inquires. -/
theorem Inquires.beyond {p : Program α} {k : α → Program β} {x : Exchange} (h : p.Inquires)
    (mem : x ∈ (p.bind k).trace world s) (more : x.call.isInquiry = false) :
    ∃ a s', p.run world s = (.ok a, s') ∧ x ∈ (k a).trace world s' := by
  refine (mem_trace_bind mem).resolve_left fun mem => ?_
  rw [h.trace x mem] at more
  cases more

theorem log_inquires (level : Level) (event : String) (details : List (String × Detail)) :
    (log level event details).Inquires :=
  .call rfl fun _ _ => .done _

theorem fileExists_inquires (path : String) : (fileExists path).Inquires := by
  refine .bind (Keeps.outcome (Makes.call rfl fun _ _ => .ofExcept _)) fun r => ?_
  cases r with
  | ok _ => exact .done _
  | error f =>
    dsimp only
    split
    · exact .done _
    · exact Keeps.raise f

theorem readConfiguration_inquires (path : String) : (readConfiguration path).Inquires := by
  refine .bind (Keeps.attempt (Makes.call rfl fun _ _ => .ofExcept _)) fun r => ?_
  cases r with
  | ok content => exact .done content
  | error e => exact .ofExcept _

/-- Loading settings looks at one file and reads it. -/
theorem loadSettings_inquires (path : String) : (loadSettings path).Inquires := by
  refine .bind (fileExists_inquires _) fun there => ?_
  cases there with
  | true => exact .bind (readConfiguration_inquires _) fun _ => .ofExcept _
  | false => exact .bind (log_inquires _ _ _) fun _ => .done _

end Program

namespace Command

open Program

variable {σ : Type} {world : Layer σ} {s : σ}

theorem resolveSettings_inquires (o : Options) (configuration : String) :
    (resolveSettings o configuration).Inquires :=
  .bind (loadSettings_inquires configuration) fun _ => .ofExcept _

theorem resolveOwner_inquires (o : Options) : (resolveOwner o).Inquires := by
  unfold resolveOwner
  split
  · exact .done _
  · exact .bind (.ofExcept _) fun _ => .bind (.call rfl fun _ _ => .done _) fun _ => .done _

theorem refuse_inquires (event : String) (details : List (String × Detail)) :
    (refuse event details).Inquires :=
  .bind (log_inquires _ _ _) fun _ => .done _

end Command

/-! ## Results of work -/

namespace Program

theorem Returns.run {p : Program α} {good : α → Prop} (h : p.Returns good) {a : α}
    (ends : (p.run world s).1 = .ok a) : good a := by
  induction p generalizing s with
  | done b => cases ends; exact h
  | raise f => cases ends
  | call c next ih => exact ih _ (h _) ends

/-- What a program returns whose controller is a part of it. -/
theorem Returns.under {p : Program α} {good : α → Prop} (h : p.Returns good) (c : Controller) :
    (Program.under c p).Returns fun r => ∀ a, r.1 = .ok a → good a := by
  induction p generalizing c with
  | done a => exact fun b same => by cases same; exact h
  | raise f => exact fun _ bad => by cases bad
  | call other next ih =>
    cases other with
    | elevate | relinquish => exact .after fun r => ih r.1 (h r.1) r.2
    | _ => exact fun r => ih r (h r) c

theorem Returns.withPrivileges {p : Program α} {good : α → Prop} (h : p.Returns good)
    (privileges : Privileges) : (Program.withPrivileges privileges p).Returns good := by
  have running : ∀ c, ((Program.under c p).bind fun r => Program.ofExcept r.1).Returns good := by
    refine fun c => (h.under c).bind fun r kept => ?_
    obtain ⟨out, c'⟩ := r
    cases out with
    | ok a => exact kept a rfl
    | error f => exact trivial
  cases privileges with
  | world => exact h
  | automatic => exact .after running
  | fresh c => exact running c

/-- A request that is carried out was not skipped. -/
theorem provision_returns (r : Request) (user : String) (chunkSize : Option Int)
    (limits : Limits) : (provision r user chunkSize limits).Returns (·.skipped = false) := by
  have work : (establishHome r user chunkSize limits).Returns (· ≠ .skipped) := by
    refine .after fun result => ?_
    split
    · exact .after fun _ => nofun
    · exact .after fun _ => nofun
  have elevated : (elevated (establishHome r user chunkSize limits)).Returns (· ≠ .skipped) :=
    .after fun _ => work.ensuring
  rw [provision_eq]
  refine elevated.bind fun outcome other => ?_
  cases outcome with
  | skipped => exact absurd rfl other
  | failed kind message => exact rfl
  | ready report => exact fun _ => rfl

end Program

/-! ## The switch -/

namespace Command

/-- Whether an argument switches the creation of homes on. -/
def isSwitch (argument : String) : Prop :=
  classify argument = .ok (.option .enable .nothing)

theorem Taken.set_enable {t t' : Taken} {option : OptionName} {text : String}
    (h : t.set option text = .ok t') : t'.options.enable = t.options.enable := by
  have stored : ∀ {α : Type} {x : Except LineError α} {store : α → Taken}, x.map store = .ok t' →
      (∀ a, (store a).options.enable = t.options.enable) →
        t'.options.enable = t.options.enable := by
    intro α x store h same
    obtain ⟨a, -, rfl⟩ := map_eq_ok.mp h
    exact same a
  cases option <;> first | cases h | exact stored h fun _ => rfl

/-- Nothing but the switch switches the creation of homes on. -/
theorem take_enable {t t' : Taken} {items : List Item} (h : take t items = .ok (some t'))
    (on : t'.options.enable = true) :
    t.options.enable = true ∨ .option .enable .nothing ∈ items := by
  fun_induction take t items
  case case1 => cases h; exact .inl on
  case case10 | case11 | case16 => cases h
  case case12 text =>
    obtain ⟨_, _, bad⟩ := map_eq_ok.mp h
    cases bad
  case case13 => exact .inr List.mem_cons_self
  case case14 t name text rest _ ih | case15 t name text rest _ _ ih =>
    obtain ⟨u, set, h⟩ := Machine.bind_eq_ok.mp h
    rw [← Taken.set_enable set]
    exact (ih u h).imp_right fun mem => by simp [mem]
  all_goals
    next ih => exact (ih h).imp_right fun mem => by simp [mem]

/-- An option among the classes of arguments is one of the arguments. -/
theorem mem_of_classifyAll {arguments : List String} {items : List Item} {name : OptionName}
    {joined : Joined} (h : classifyAll arguments = .ok items)
    (mem : .option name joined ∈ items) :
    ∃ a ∈ arguments, classify a = .ok (.option name joined) := by
  induction arguments generalizing items with
  | nil => cases h; cases mem
  | cons text rest ih =>
    unfold classifyAll at h
    split at h
    · cases h
      simp at mem
    · obtain ⟨item, first, h⟩ := Machine.bind_eq_ok.mp h
      obtain ⟨items', others, h⟩ := Machine.bind_eq_ok.mp h
      cases h
      rcases List.mem_cons.mp mem with rfl | mem
      · exact ⟨text, List.mem_cons_self, first⟩
      · obtain ⟨a, among, same⟩ := ih others mem
        exact ⟨a, List.mem_cons_of_mem _ among, same⟩

/-- What a command line that asks for a run was read from. -/
theorem Line.ofArguments_run {arguments : List String} {path : String} {o : Options}
    (line : Line.ofArguments arguments = .ok (.run path o)) :
    ∃ items t, classifyAll arguments = .ok items ∧ take {} items = .ok (some t) ∧
      t.options = o ∧ t.missing = [] := by
  unfold Line.ofArguments at line
  obtain ⟨items, classified, line⟩ := Machine.bind_eq_ok.mp line
  obtain ⟨t?, taken, line⟩ := Machine.bind_eq_ok.mp line
  rw [Machine.mapError_eq_ok] at classified
  cases t? with
  | none => cases line
  | some t =>
    refine ⟨items, t, classified, taken, ?_⟩
    dsimp only at line
    unfold Taken.finish at line
    split at line
    · next complete _ => cases line; exact ⟨rfl, complete⟩
    · cases line
    · cases line

/-- A command line that switches the creation of homes on has the switch among its arguments. -/
theorem exists_isSwitch {arguments : List String} {path : String} {o : Options}
    (line : Line.ofArguments arguments = .ok (.run path o)) (on : o.enable = true) :
    ∃ a ∈ arguments, isSwitch a := by
  obtain ⟨items, t, classified, taken, rfl, -⟩ := Line.ofArguments_run line
  exact mem_of_classifyAll classified ((take_enable taken on).resolve_left nofun)

/-! ## Settings that are enabled -/

/-- Settings with options over them are enabled by the switch or as they are written. -/
theorem Options.resolve_enabled {o : Options} {loaded : Option Settings} {st : Settings}
    (h : o.resolve loaded = .ok (some st)) (on : st.enabled = true) :
    o.enable = true ∨ ∃ written, loaded = some written ∧ written.enabled = true := by
  have enabled := (Options.resolve_eq_some_iff.mp h).2.2.enabled
  rw [on] at enabled
  split at enabled
  · next switch => exact .inl switch
  · cases loaded with
    | none => cases enabled
    | some written => exact .inr ⟨written, rfl, enabled.symm⟩

/-! ## The run -/

open Program

variable {σ : Type} {world : Layer σ} {s : σ} {x : Exchange}

/-- Whether a result of the command tells of work that was not skipped. -/
def CommandResult.TellsOfWork (r : CommandResult) : Prop :=
  r.exitCode ≠ refusedCode ∧
    ∃ result : ProvisionResult, result.skipped = false ∧ r.output = result.json.page ++ "\n"

/-- Calls are made only for settings that are enabled, and then the result is not one of
skipping. -/
theorem provisionIfEnabled_enabled {settings : Option Settings} {target user : String}
    {request : Settings → Except Invalid Request} {privileges : Privileges}
    {chunkSize : Option Int} {limits : Limits}
    (mem : x ∈ (provisionIfEnabled settings target user request privileges chunkSize
      limits).trace world s) :
    (∃ st, settings = some st ∧ st.enabled = true) ∧
      (provisionIfEnabled settings target user request privileges chunkSize limits).Returns
        (·.skipped = false) := by
  unfold provisionIfEnabled at mem ⊢
  cases settings with
  | none => cases mem
  | some st =>
    dsimp only at mem ⊢
    split at mem
    · next on =>
      rw [if_pos on]
      exact ⟨⟨st, rfl, on⟩,
        .after fun r => (provision_returns r user chunkSize limits).withPrivileges privileges⟩
    · cases mem

/-- A run that does more than inquire, once there are settings, has settings that are enabled, and
tells of work if it has a result. -/
theorem runWith_enabled {constants : Constants} {path : String} {o : Options}
    {settings : Option Settings} (mem : x ∈ (runWith constants path o settings).trace world s)
    (more : x.call.isInquiry = false) :
    (∃ st, settings = some st ∧ st.enabled = true) ∧
      ∀ r, ((runWith constants path o settings).run world s).1 = .ok r → r.TellsOfWork := by
  obtain ⟨owner, s₁, owned, mem⟩ := (resolveOwner_inquires o).beyond mem more
  have run : (runWith constants path o settings).run world s = _ := run_bind_ok owned
  rw [run]
  cases owner with
  | none =>
    rw [(refuse_inquires _ _).trace x mem] at more
    cases more
  | some ids =>
    obtain ⟨uid, gid⟩ := ids
    have mem := (mem_trace_bind mem).resolve_right fun ⟨_, _, _, mem⟩ => nomatch mem
    obtain ⟨enabled, worked⟩ := provisionIfEnabled_enabled mem
    refine ⟨enabled, fun r ends => ?_⟩
    obtain ⟨result, s₂, provided, ends, -⟩ := bind_run_eq_ok (Prod.ext ends rfl)
    cases ends
    refine ⟨?_, result, worked.run (congrArg Prod.fst provided), rfl⟩
    change (if result.success then 0 else 1) ≠ 2
    split <;> decide

/-- Settings that have been resolved are those that options make of what has been loaded. -/
theorem resolveSettings_run_eq_ok {o : Options} {configuration : String}
    {settings : Option Settings}
    (ends : ((resolveSettings o configuration).run world s).1 = .ok settings) :
    ∃ loaded, ((loadSettings configuration).run world s).1 = .ok loaded ∧
      o.resolve loaded = .ok settings := by
  rw [resolveSettings_run] at ends
  exact Options.resolved_eq_ok_iff.mp ends

/-- A run of the command that does more than inquire: its settings are enabled, by the switch or by
the file, and it tells of work if it has a result. -/
theorem runOptions_enabled {constants : Constants} {path : String} {o : Options}
    (mem : x ∈ (runOptions constants path o).trace world s) (more : x.call.isInquiry = false) :
    (∃ configuration loaded st, o.configurationPath constants = .ok configuration ∧
      ((loadSettings configuration).run world s).1 = .ok loaded ∧
      o.resolve loaded = .ok (some st) ∧ st.enabled = true) ∧
      ∀ r, ((runOptions constants path o).run world s).1 = .ok r → r.TellsOfWork := by
  have first : (ofExcept (o.configurationPath constants)).Inquires := .ofExcept _
  obtain ⟨configuration, s₁, located, mem⟩ := first.beyond mem more
  have run : (runOptions constants path o).run world s = _ := run_bind_ok located
  rw [run]
  rw [run_ofExcept] at located
  obtain ⟨place, rfl⟩ := Prod.mk.inj located
  have second : (outcome (resolveSettings o configuration)).Inquires :=
    Keeps.outcome (resolveSettings_inquires o configuration)
  obtain ⟨resolved, s₂, resolves, mem⟩ := second.beyond mem more
  rw [bind_eq, run_bind_ok resolves]
  rw [run_outcome] at resolves
  cases resolved with
  | error f =>
    dsimp only at mem
    split at mem
    · rw [(refuse_inquires _ _).trace x mem] at more
      cases more
    · cases mem
  | ok settings =>
    obtain ⟨⟨st, rfl, on⟩, told⟩ := runWith_enabled mem more
    have ends := Except.ok.inj (Prod.mk.inj resolves).1
    obtain ⟨loaded, loads, given⟩ := resolveSettings_run_eq_ok ends
    exact ⟨⟨configuration, loaded, st, place, loads, given, on⟩, told⟩

/-- Whether a run of the command ends before any work: on its arguments, with the exit code for
refusals, or with a result that says it was skipped. -/
def EndsIdle (arguments : List String) (out : Except Fault CommandResult) : Prop :=
  (∀ path o, Line.ofArguments arguments ≠ .ok (.run path o)) ∨
    ∃ r, out = .ok r ∧ (r.exitCode = refusedCode ∨
      ∃ result : ProvisionResult, result.skipped = true ∧ r.output = result.json.page ++ "\n")

/-- Whether the settings for a run are enabled, by the switch among the arguments or by what is
written in the configuration file. -/
def IsEnabled (world : Layer σ) (s : σ) (constants : Constants) (arguments : List String) : Prop :=
  ∃ path o configuration loaded st, Line.ofArguments arguments = .ok (.run path o) ∧
    o.configurationPath constants = .ok configuration ∧
    ((loadSettings configuration).run world s).1 = .ok loaded ∧
    o.resolve loaded = .ok (some st) ∧ st.enabled = true ∧
    ((∃ a ∈ arguments, isSwitch a) ∨ ∃ written, loaded = some written ∧ written.enabled = true)

theorem CommandResult.TellsOfWork.not_idle {r : CommandResult} (h : r.TellsOfWork) :
    r.exitCode ≠ refusedCode ∧
      ∀ result : ProvisionResult, r.output = result.json.page ++ "\n" → result.skipped = false := by
  obtain ⟨code, worked, other, written⟩ := h
  refine ⟨code, fun result same => ?_⟩
  rw [written] at same
  exact (ProvisionResult.skipped_of_page ((String.append_left_inj _).mp same)).symm.trans other

/-- Nothing happens unless it is enabled. A run of the command that ends on its arguments, with the
exit code for refusals or with a result that was skipped has made inquiries only and left the
machine as it was, whatever calls failed. And a run that makes any other call has settings that are
enabled, by the switch among the arguments or by the configuration file. -/
theorem run_idle {spared : Call → Prop} {view : σ → Machine}
    (keeps : world.KeepsTo (Machine.Disturbed spared) view) (constants : Constants)
    (arguments : List String) (s : σ) :
    (EndsIdle arguments ((run constants arguments).run world s).1 →
      (∀ x ∈ (run constants arguments).trace world s, x.call.isInquiry = true) ∧
        view ((run constants arguments).run world s).2 = view s) ∧
      ((∃ x ∈ (run constants arguments).trace world s, x.call.isInquiry = false) →
        IsEnabled world s constants arguments) := by
  have inquiry : ∀ c s, c.isInquiry = true → view (world.reply c s).2 = view s :=
    fun c s inquiry => (keeps c s).of_isInquiry inquiry
  unfold run
  cases line : Line.ofArguments arguments with
  | error e => exact ⟨fun _ => ⟨fun _ mem => (nomatch mem), rfl⟩, fun ⟨_, mem, _⟩ => nomatch mem⟩
  | ok asked =>
    cases asked with
    | help => exact ⟨fun _ => ⟨fun _ mem => (nomatch mem), rfl⟩, fun ⟨_, mem, _⟩ => nomatch mem⟩
    | run path o =>
      dsimp only
      refine ⟨fun idle => ?_, fun ⟨x, mem, more⟩ => ?_⟩
      · have calls : ∀ x ∈ (runOptions constants path o).trace world s,
            x.call.isInquiry = true := by
          intro x mem
          by_contra more
          obtain ⟨-, told⟩ := runOptions_enabled mem (Bool.eq_false_iff.mpr more)
          rcases idle with other | ⟨r, ends, code | ⟨result, skipped, written⟩⟩
          · exact other path o line
          · exact (told r ends).not_idle.1 code
          · rw [(told r ends).not_idle.2 result written] at skipped
            cases skipped
        exact ⟨calls, run_still inquiry calls⟩
      · obtain ⟨⟨configuration, loaded, st, place, loads, given, on⟩, -⟩ :=
          runOptions_enabled mem more
        refine ⟨path, o, configuration, loaded, st, line, place, loads, given, on, ?_⟩
        exact (Options.resolve_enabled given on).imp_left (exists_isSwitch line)

/-- A user that is known: skipped without the switch, and with the switch, which may be cut short,
not. -/
theorem run_idle_user :
    let m : Machine := { users := [("u", 7, 7)] }
    let constants := Constants.ofEnvironment [] []
    let arguments := ["/u", "--user", "u"]
    EndsIdle arguments ((run constants arguments).run Machine.layer m).1 ∧
      (∀ x ∈ (run constants arguments).trace Machine.layer m, x.call.isInquiry = true) ∧
      ((run constants arguments).run Machine.layer m).2 = m ∧
      (∃ x ∈ (run constants ("--en" :: arguments)).trace Machine.layer m,
        x.call.isInquiry = false) ∧
      IsEnabled Machine.layer m constants ("--en" :: arguments) := by
  intro m constants arguments
  have keeps := Machine.layer_keepsTo fun _ => False
  have skipped : ((run constants arguments).run Machine.layer m).1 =
      .ok { exitCode := 0, output := (ProvisionResult.mk "/u" .skipped).json.page ++ "\n" } := by
    decide +kernel
  have idle : EndsIdle arguments ((run constants arguments).run Machine.layer m).1 :=
    .inr ⟨_, skipped, .inr ⟨_, rfl, rfl⟩⟩
  have more : ∃ x ∈ (run constants ("--en" :: arguments)).trace Machine.layer m,
      x.call.isInquiry = false := by
    decide +kernel
  obtain ⟨calls, same⟩ := (run_idle keeps constants arguments m).1 idle
  exact ⟨idle, calls, same, more, (run_idle keeps constants ("--en" :: arguments) m).2 more⟩

end Command

end HomeProvision
