import HomeProvision.Number.Octal
import HomeProvision.Settings.Mode

/-!
# Settings and requests

`Settings` says whether homes are created on demand and how. A `Request` is what is left to do for
one user once settings are given. Both hold checked modes only; a `Draft` holds what has been read
and not yet checked.
-/

namespace HomeProvision

/-- Whether and how homes are created on demand. -/
structure Settings where
  enabled : Bool := false
  finalMode : Mode := Mode.home
  intermediateMode : Mode := Mode.intermediate
  skeleton : Option String := none
  deriving Repr, DecidableEq

/-- One home to create, with its owner, its modes and the skeleton to fill it from. -/
structure Request where
  target : String
  ownerUid : Nat
  ownerGid : Nat
  intermediateMode : Mode := Mode.intermediate
  finalMode : Mode := Mode.home
  skeleton : Option String := none
  deriving Repr, DecidableEq

/-- What is wrong with one field. -/
inductive FieldProblem where
  | missing
  | notText
  | notBool
  | unclearBool
  | notInt
  | unclearInt
  | fractional
  | notFinite
  | oversized
  | negative
  | badMode (value : Int)
  | frozen
  deriving Repr, DecidableEq

/-- The wording of a problem. -/
def FieldProblem.message : FieldProblem → String
  | .missing => "Field required"
  | .notText => "Input should be a valid string"
  | .notBool => "Input should be a valid boolean"
  | .unclearBool => "Input should be a valid boolean, unable to interpret input"
  | .notInt => "Input should be a valid integer"
  | .unclearInt => "Input should be a valid integer, unable to parse string as an integer"
  | .fractional => "Input should be a valid integer, got a number with a fractional part"
  | .notFinite => "Input should be a finite number"
  | .oversized => "Unable to parse input string as an integer, exceeded maximum size"
  | .negative => "Input should be greater than or equal to 0"
  | .badMode value =>
      "Value error, mode " ++ Number.octalText value ++ " is not a valid permission mode"
  | .frozen => "Instance is frozen"

/-- The records that are checked field by field. -/
inductive RecordName where
  | settings
  | request
  deriving Repr, DecidableEq

/-- The name of a record in messages. -/
def RecordName.text : RecordName → String
  | .settings => "CreateHomeConfig"
  | .request => "ProvisionRequest"

/-- The fields of a record that could not be accepted, in the order of declaration. -/
structure Invalid where
  record : RecordName
  problems : List (String × FieldProblem)
  deriving Repr, DecidableEq

/-- The report on a record: how many problems there are, then each field with its problem. -/
def Invalid.message (e : Invalid) : String :=
  let count := e.problems.length
  let head :=
    toString count ++ " validation error" ++ (if count = 1 then "" else "s") ++ " for " ++
      e.record.text
  "\n".intercalate (head :: e.problems.flatMap fun p => [p.1, "  " ++ p.2.message])

/-- Settings whose modes have not been checked. -/
structure Draft where
  enabled : Bool := false
  finalMode : Int := Mode.home.toInt
  intermediateMode : Int := Mode.intermediate.toInt
  skeleton : Option String := none
  deriving Repr, DecidableEq

/-- A mode in range, or the problem with the number. -/
def checkMode (n : Int) : Except FieldProblem Mode :=
  match Mode.ofInt? n with
  | some m => .ok m
  | none => .error (.badMode n)

/-- The problem of a field, under the field's name. -/
def problemIn {α : Type} (name : String) : Except FieldProblem α → List (String × FieldProblem)
  | .ok _ => []
  | .error p => [(name, p)]

/-- Settings with modes that have been checked one by one, or the problems with the modes. -/
def Settings.checked (enabled : Bool) (finalMode intermediateMode : Except FieldProblem Mode)
    (skeleton : Option String) : Except Invalid Settings :=
  match finalMode, intermediateMode with
  | .ok finalMode, .ok intermediateMode =>
      .ok { enabled, finalMode, intermediateMode, skeleton }
  | finalMode, intermediateMode =>
      .error ⟨.settings,
        problemIn "final_mode" finalMode ++ problemIn "intermediate_mode" intermediateMode⟩

/-- The settings of a draft, or every mode in it that is out of range. -/
def Draft.check (d : Draft) : Except Invalid Settings :=
  Settings.checked d.enabled (checkMode d.finalMode) (checkMode d.intermediateMode) d.skeleton

/-- The draft that checks to the settings. -/
def Settings.draft (s : Settings) : Draft where
  enabled := s.enabled
  finalMode := s.finalMode.toInt
  intermediateMode := s.intermediateMode.toInt
  skeleton := s.skeleton

/-- An owner's number, which must not be negative. -/
def checkOwner (n : Int) : Except FieldProblem Nat :=
  if 0 ≤ n then .ok n.toNat else .error .negative

/-- The request that the settings give for a target and its owner's numbers, which have been checked
one by one. -/
def Settings.requestFor (s : Settings) (target : String) (uid gid : Except FieldProblem Nat) :
    Except Invalid Request :=
  match uid, gid with
  | .ok ownerUid, .ok ownerGid =>
      .ok {
        target, ownerUid, ownerGid
        intermediateMode := s.intermediateMode
        finalMode := s.finalMode
        skeleton := s.skeleton }
  | uid, gid => .error ⟨.request, problemIn "owner_uid" uid ++ problemIn "owner_gid" gid⟩

/-- The request that the settings give for a target and its owner. -/
def Settings.toRequest (s : Settings) (target : String) (uid gid : Int) : Except Invalid Request :=
  s.requestFor target (checkOwner uid) (checkOwner gid)

/-- A request cannot be changed: any assignment to one of its fields is refused. Names that start
with an underscore are no fields, and setting one leaves the request as it is. -/
def Request.assign (r : Request) (name : String) : Except Invalid Request :=
  if name.startsWith "_" then .ok r else .error ⟨.request, [(name, .frozen)]⟩

end HomeProvision
