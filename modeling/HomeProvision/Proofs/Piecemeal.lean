import HomeProvision.Proofs.Copies
import HomeProvision.Proofs.Evolution
import HomeProvision.Proofs.Undisturbed

/-!
# Copying piece by piece

A system need not read as many bytes as it is asked for, nor write all that it is given, and any call
can fail (`Piecemeal`). While a file is copied, what was read so far and what was written so far are
first parts of the same content, of the same length (`Pouring`). Reading goes on where it stopped, and
it gives nothing only at the end, since more than nothing is asked for; so the content is whole when it
comes to an end there (`copyPieces_pours`).

Later steps change the owner and the mode of the new file, which is found at its path all the time
(`Filed`), and the file that is said to be copied has both (`copyFile_pours`).

What is shown holds of every copy. That a copy has a result at all is shown where all calls that fail do
so with an error of the system (`fair`).
-/

namespace HomeProvision

namespace Machine

open HomeProvision.Machine.Tree (Spot)

/-- What may happen to a machine while a file is copied. A read may give less than there is and a write
may take less than it is given; a call that fails changes nothing, and the hook changes no file. -/
inductive Piecemeal : (c : Call) → Machine → c.Reply → Machine → Prop
  | answered (c : Call) (m : Machine) : Piecemeal c m (m.reply c).1 (m.reply c).2
  | readLess {number size : Int} (less : Int) (m : Machine) (some : 0 < less) (fits : less ≤ size) :
      Piecemeal (.read number size) m (m.reply (.read number less)).1 (m.reply (.read number less)).2
  | wroteLess {number : Int} {bytes : List UInt8} (less : Nat) (m : Machine) :
      Piecemeal (.write number bytes) m (m.reply (.write number (bytes.take less))).1
        (m.reply (.write number (bytes.take less))).2
  | failed {c : Call} {r : c.Reply} (m : Machine) (own : c.isForeign = false)
      (fails : (c.fault? r).isSome = true) : Piecemeal c m r m
  | paused {m m' : Machine} (same : SameFiles m m') : Piecemeal .pause m (.ok ()) m'

/-- A machine that reads one byte at a time and takes only some bytes at a time. -/
def sparing (most : Nat) : Layer Machine where
  reply
    | .read number size, m => m.reply (.read number (min size 1))
    | .write number bytes, m => m.reply (.write number (bytes.take most))
    | c, m => m.reply c

theorem sparing_keepsTo (most : Nat) : (sparing most).KeepsTo Piecemeal id := by
  intro c m
  cases c with
  | read number size =>
    change Piecemeal (.read number size) m (m.reply (.read number (min size 1))).1
      (m.reply (.read number (min size 1))).2
    by_cases more : 1 ≤ size
    · rw [Int.min_eq_right more]
      exact .readLess 1 m (by decide) more
    · rw [Int.min_eq_left (by omega)]
      exact .answered _ m
  | write number bytes => exact .wroteLess most m
  | _ => exact .answered _ m

/-- A call that comes back with a fault changes no file. -/
theorem reply_failed (c : Call) (m : Machine) (fails : (c.fault? (m.reply c).1).isSome = true) :
    (m.reply c).2.tree = m.tree := by
  by_cases quiet : c.changesTree = false
  · exact (Program.sameTree_of_disturbed (.answered c m : Disturbed (fun _ => True) c m _ _) quiet).1
  have changed {e : Except Fault Machine} (fails : (faultOf (m.changed e).1).isSome = true) :
      (m.changed e).2.tree = m.tree := by
    cases e with
    | ok m' => cases fails
    | error f => rfl
  have answered {e : Except Fault (Int × Machine)}
      (fails : (faultOf (m.answered e).1).isSome = true) : (m.answered e).2.tree = m.tree := by
    cases e with
    | ok found => cases fails
    | error f => rfl
  cases c with
  | mkdir | chown | lchown | chmod | truncate | symlink => exact changed fails
  | openExclusive | write => exact answered fails
  | _ => exact absurd rfl quiet

/-- The tree is as it was after a call that changes none, and after one that fails. -/
theorem Piecemeal.sameTree {c : Call} {m m' : Machine} {r : c.Reply} (step : Piecemeal c m r m')
    (refused : c.changesTree = true → (c.fault? r).isSome = true) : m'.tree = m.tree := by
  cases step with
  | answered =>
    cases changes : c.changesTree with
    | true => exact reply_failed c m (refused changes)
    | false => exact (Program.sameTree_of_disturbed
        (.answered c m : Disturbed (fun _ => True) c m _ _) changes).1
  | readLess less => exact (Program.sameTree_of_disturbed
      (.answered (.read _ less) m : Disturbed (fun _ => True) _ m _ _) rfl).1
  | wroteLess less => exact reply_failed (.write _ _) m (refused rfl)
  | failed => rfl
  | paused same => exact same.tree

/-- The bytes that can be read from a node. From a directory none can. -/
def Node.bytes? (n : Node) : Option (List UInt8) :=
  match n.body with
  | .file content => some content
  | .directory _ _ => none
  | _ => some []

/-- A new file of the process, made with the bits that a file has before its copy is complete. -/
def newFile (m : Machine) (directory : Nat) (content : List UInt8) : Node :=
  m.newNode directory (m.fileBits Program.freshFileMode) (.file content)

variable {m now now' : Machine} {path source : String} {s : Spot} {n : Node} {f : Node → Node}
  {i : Nat} {content? : Option (List UInt8)} {reading writing : Int} {offset copied : Nat}

/-- Where a new file can be made. -/
structure Vacant (m : Machine) (path : String) (s : Spot) : Prop where
  spot : m.tree.spot m.current path = .ok s
  name : Path.IsName s.name
  free : m.tree.child? s.directory s.name = none
  file : Path.endsInSlash path = false
  text : checkText path = .ok ()

theorem Vacant.isDirectory (o : Vacant m path s) : m.tree.isDirectory s.directory = true := by
  obtain ⟨_, _, _, q, _, _, _, leads, here⟩ := Tree.spot_eq_ok o.spot
  rw [← here]
  exact ((Tree.walk_directory m.tree _ _ _ true q).mp leads).2

/-- A machine with one more node, and all others as they were. -/
structure Filed (m : Machine) (s : Spot) (n : Node) (now : Machine) : Prop where
  tree : now.tree = m.tree.create s.directory s.name n
  current : now.current = m.current

theorem Filed.same (h : Filed m s n now) (tree : now'.tree = now.tree)
    (current : now'.current = now.current) : Filed m s n now' :=
  ⟨tree.trans h.tree, current.trans h.current⟩

section

variable (o : Vacant m path s) (h : Filed m s n now)
include o h

theorem Filed.here : now.tree.node? m.tree.nextPlace = some n := by
  rw [h.tree]
  exact Tree.node?_create_new (Tree.lt_of_isDirectory o.isDirectory)

/-- The new node is found at its path. -/
theorem Filed.leads (noLink : n.target? = none) :
    ∃ above, now.tree.resolve now.current true path = .ok ⟨m.tree.nextPlace, above⟩ := by
  have grows : m.tree.Grows now.tree := by
    rw [h.tree]
    exact Tree.Grows.create (Tree.lt_of_isDirectory o.isDirectory) o.free
  have named : now.tree.child? s.directory s.name = some m.tree.nextPlace := by
    rw [h.tree]
    exact Tree.child?_create_new o.isDirectory o.free
  rw [h.current]
  refine Tree.resolve_of_spot o.name (grows.spot o.spot) named (.inl ?_) fun ends => ?_
  · rw [h.here o, Option.bind_some, noLink]
  · rw [o.file] at ends
    cases ends

theorem Filed.find (noLink : n.target? = none) : now.find true path = .ok (m.tree.nextPlace, n) := by
  obtain ⟨above, leads⟩ := h.leads o noLink
  exact find_eq_ok o.text leads (h.here o)

theorem Filed.changed (change : Changed now m.tree.nextPlace f now') : Filed m s (f n) now' := by
  refine ⟨?_, change.current.trans h.current⟩
  rw [change.tree, h.tree]
  exact Tree.modify_create (Tree.lt_of_isDirectory o.isDirectory) f

/-- A change of what the path leads to is one of the new node. -/
theorem Filed.changed_path (noLink : n.target? = none)
    (change : ∃ i above, now.tree.resolve now.current true path = .ok ⟨i, above⟩ ∧
      Changed now i f now') : Filed m s (f n) now' := by
  obtain ⟨i, above, leads, change⟩ := change
  obtain ⟨above', leads'⟩ := h.leads o noLink
  cases leads.symm.trans leads'
  exact h.changed o change

end

/-- A file that is being copied: `offset` bytes of the source were read, and the first `copied` of them
are in the new file. -/
structure Pouring (m : Machine) (s : Spot) (i : Nat) (content? : Option (List UInt8))
    (reading writing : Int) (offset copied : Nat) (now : Machine) : Prop where
  filed : Filed m s (m.newFile s.directory ((content?.getD []).take copied)) now
  source : ∃ n, now.tree.node? i = some n ∧ n.bytes? = content?
  old : i ≠ m.tree.nextPlace
  reader : ∃ d, now.descriptor? reading = some d ∧ d.node = i ∧ d.offset = offset
  writer : ∃ d, now.descriptor? writing = some d ∧ d.node = m.tree.nextPlace
  apart : writing ≠ reading
  within : copied ≤ (content?.getD []).length

theorem Pouring.sameFiles (h : Pouring m s i content? reading writing offset copied now)
    (same : SameFiles now now') : Pouring m s i content? reading writing offset copied now' := by
  refine ⟨h.filed.same same.tree same.current, ?_, h.old, ?_, ?_, h.apart, h.within⟩
  · rw [same.tree]
    exact h.source
  · unfold descriptor?
    rw [same.descriptors]
    exact h.reader
  · unfold descriptor?
    rw [same.descriptors]
    exact h.writer

/-- A piece that was read, and how far the descriptor has moved. -/
theorem Pouring.drawn {size : Int} {piece : List UInt8}
    (h : Pouring m s i content? reading writing offset copied now)
    (done : now.read reading size = .ok (piece, now')) :
    Pouring m s i content? reading writing (offset + piece.length) copied now' ∧
      0 ≤ size ∧ ∃ content, content? = some content ∧
        piece = (content.drop offset).take size.toNat := by
  obtain ⟨d, reads, node, moved⟩ := h.reader
  obtain ⟨n, there, bytes⟩ := h.source
  rcases Int.lt_or_le size 0 with negative | positive
  · unfold read at done
    rw [if_pos negative] at done
    cases done
  subst node moved
  have plain : now' = now → piece = [] → n.bytes? = some [] → Pouring m s d.node content? reading
      writing (d.offset + piece.length) copied now' ∧ 0 ≤ size ∧
        ∃ content, content? = some content ∧ piece = (content.drop d.offset).take size.toNat := by
    rintro rfl rfl empty
    exact ⟨h, positive, [], bytes.symm.trans empty, by simp⟩
  unfold Node.bytes? at plain bytes
  cases body : n.body with
  | file content =>
    rw [body] at bytes
    rw [Program.read_file reads there body positive] at done
    cases done
    obtain ⟨here, others⟩ := Program.moved_afterPiece reads
      ((content.drop d.offset).take size.toNat).length
    refine ⟨⟨h.filed.same rfl rfl, ⟨n, there, ?_⟩, h.old, ⟨_, here, rfl, rfl⟩, ?_, h.apart, h.within⟩,
      positive, content, bytes.symm, rfl⟩
    · unfold Node.bytes?
      rw [body, bytes]
    · rw [others _ h.apart]
      exact h.writer
  | directory entries dots =>
    unfold read at done
    rw [if_neg (Int.not_lt.mpr positive), openFile_eq_ok.mpr reads] at done
    simp only [bind, Except.bind, there, Option.map_some, body] at done
    cases done
  | _ =>
    unfold read at done
    rw [if_neg (Int.not_lt.mpr positive), openFile_eq_ok.mpr reads] at done
    simp only [bind, Except.bind, there, Option.map_some, body] at done
    cases done
    exact plain rfl rfl (by rw [body])

/-- Whether a number of bytes is all that can be read. -/
def IsWhole (content? : Option (List UInt8)) (count : Nat) : Prop :=
  ∃ content, content? = some content ∧ content.length ≤ count

/-- A piece is the next part of the content. Where more than nothing is asked for, it is empty only at
the end. -/
theorem Pouring.drawn_next {size : Int} {piece : List UInt8} (some : size ≠ 0)
    (h : Pouring m s i content? reading writing offset copied now)
    (done : now.read reading size = .ok (piece, now')) :
    Pouring m s i content? reading writing (offset + piece.length) copied now' ∧
      piece <+: (content?.getD []).drop offset ∧ (piece = [] → IsWhole content? offset) := by
  obtain ⟨next, positive, content, rfl, own⟩ := h.drawn done
  refine ⟨next, own ▸ List.take_prefix _ _, fun ended => ⟨content, rfl, ?_⟩⟩
  have count := congrArg List.length (own.symm.trans ended)
  rw [List.length_take, List.length_drop, List.length_nil] at count
  omega

/-- Bytes that were written, the next ones of the source. -/
theorem Pouring.written {written : Int} {bytes : List UInt8} (o : Vacant m path s)
    (h : Pouring m s i content? reading writing offset copied now)
    (next : bytes <+: (content?.getD []).drop copied)
    (done : now.write writing bytes = .ok (written, now')) :
    written = bytes.length ∧
      Pouring m s i content? reading writing offset (copied + bytes.length) now' := by
  obtain ⟨d, writes, node⟩ := h.writer
  obtain ⟨n, there, own⟩ := h.source
  obtain ⟨e, found, whole, change⟩ := write_ok done
  cases (openFile_eq_ok.mpr writes).symm.trans found
  rw [node] at change
  have same : ∀ k, now'.descriptor? k = now.descriptor? k := by
    intro k
    unfold descriptor?
    rw [change.descriptors]
  have fits := next.length_le
  rw [List.length_drop] at fits
  have within := h.within
  refine ⟨whole, ?_, ⟨n, ?_, own⟩, h.old, ?_, ?_, h.apart, by omega⟩
  · have joined : (content?.getD []).take (copied + bytes.length) =
        (content?.getD []).take copied ++ bytes := by
      rw [List.take_add, List.prefix_iff_eq_take.mp next, List.length_take,
        Nat.min_eq_left (by rw [List.length_drop]; omega)]
    rw [joined]
    exact h.filed.changed o change
  · rw [change.tree, Tree.node?_modify_ne _ h.old]
    exact there
  · rw [same]
    exact h.reader
  · rw [same]
    exact h.writer

/-- A file that was opened gives the bytes that its path leads to. -/
theorem openRead_bytes {number : Int} (done : m.openRead source = .ok (number, now)) :
    ∃ i n, m.tree.node? i = some n ∧ n.bytes? = (m.contentOf source).toOption ∧
      (number, now) = m.opened source i := by
  obtain ⟨⟨i, n⟩, found, done⟩ := bind_eq_ok.mp done
  obtain ⟨_, here⟩ := find_ok found
  refine ⟨i, n, here, ?_, ?_⟩
  · unfold contentOf Node.bytes?
    rw [found]
    simp only [bind, Except.bind]
    cases n.body <;> rfl
  · dsimp only at done
    split at done
    · cases done
    · cases done
      rfl

/-- A new node has no influence on what can be read from another one. -/
theorem Created.bytes?_old {bits : Nat} {body : Body} (made : Created m path bits body s now)
    (here : m.tree.node? i = some n) : ∃ n', now.tree.node? i = some n' ∧ n'.bytes? = n.bytes? := by
  have old : i ≠ m.tree.nextPlace := Nat.ne_of_lt (Tree.lt_of_node? here)
  have inside := Tree.lt_of_isDirectory made.isDirectory
  rw [made.tree, Tree.node?_create inside, if_neg old]
  split
  · next same =>
    subst same
    refine ⟨_, by rw [here, Option.map_some], ?_⟩
    unfold Node.mapEntries Node.bytes?
    cases body : n.body <;> simp [body]
  · exact ⟨n, here, rfl⟩

/-- A file that was opened, and one that was created after it. -/
theorem Pouring.start {opened : Machine} (first : m.openRead source = .ok (reading, opened))
    (second : opened.openExclusive path Program.freshFileMode = .ok (writing, now)) :
    ∃ s i, Vacant m path s ∧
      Pouring m s i (m.contentOf source).toOption reading writing 0 0 now := by
  obtain ⟨i, n, here, bytes, start⟩ := openRead_bytes first
  obtain ⟨_, text, _⟩ := bind_eq_ok.mp second
  obtain ⟨file, s, created, made, grown⟩ := openExclusive_ok second
  have own : reading = (m.opened source i).1 := congrArg Prod.fst start
  have after : opened = (m.opened source i).2 := congrArg Prod.snd start
  subst own after
  have own : writing = (created.opened path m.tree.nextPlace).1 := congrArg Prod.fst grown
  have after : now = (created.opened path m.tree.nextPlace).2 := congrArg Prod.snd grown
  subst own after
  have o : Vacant m path s := ⟨made.spot, made.name, made.free, file, text⟩
  have reads : created.descriptor? (m.opened source i).1 =
      some { number := m.nextDescriptor, path := source, node := i, offset := 0 } := by
    unfold descriptor?
    rw [made.descriptors]
    exact descriptor?_opened m source i
  obtain ⟨still, apart⟩ := descriptor?_opened_old reads path m.tree.nextPlace
  refine ⟨s, i, o, ⟨made.tree, made.current⟩, ?_, Nat.ne_of_lt (Tree.lt_of_node? here),
    ⟨_, still, rfl, rfl⟩, ⟨_, descriptor?_opened created path _, rfl⟩, apart, Nat.zero_le _⟩
  obtain ⟨n', kept, same⟩ := made.bytes?_old here
  exact ⟨n', kept, same.trans bytes⟩

/-- Cutting a new file to nothing changes nothing. -/
theorem Pouring.truncated (o : Vacant m path s)
    (h : Pouring m s i content? reading writing 0 0 now) (done : now.truncate path 0 = .ok now') :
    Pouring m s i content? reading writing 0 0 now' := by
  obtain ⟨_, above, leads, change⟩ := truncate_ok done
  have same := h.filed.changed_path o rfl ⟨_, above, leads, change⟩
  exact h.sameFiles ⟨same.tree.trans h.filed.tree.symm, change.current, change.descriptors⟩

end Machine

namespace Program

open Machine
open HomeProvision.Machine.Tree (Spot)

variable {α : Type} {law : (c : Call) → c.Reply → Prop} {fair : Prop} {m now : Machine}
  {path source : String} {s : Spot} {n : Node} {i : Nat} {content? : Option (List UInt8)}
  {reading writing : Int} {offset copied : Nat}

/-! ## Calls -/

/-- What may happen to a machine while a file is copied, if there are no replies but those allowed. -/
abbrev Pieces (law : (c : Call) → c.Reply → Prop) : Rule Machine :=
  fun c m r m' => Piecemeal c m r m' ∧ law c r

/-- Whether a program, begun on a machine, ends as it should. -/
abbrev Pours (law : (c : Call) → c.Reply → Prop) (p : Program α)
    (post : Except Fault α → Machine → Prop) (m : Machine) : Prop :=
  p.Meets (Pieces law) (fun _ _ => True) post m

theorem pours_log {level : Level} {event : String} {details : List (String × Detail)}
    {k : Unit → Program α} {post : Except Fault α → Machine → Prop}
    (onward : (k ()).Pours law post now) : ((log level event details).bind k).Pours law post now := by
  refine ⟨trivial, fun r now' step => ?_⟩
  cases step.1 with
  | answered => exact onward
  | failed _ _ fails => cases fails

/-- A call that may change the machine goes well, or it fails and changes nothing. -/
theorem pours_changed {e : Except Fault Machine} {post : Except Fault Unit → Machine → Prop}
    {lawful : Except Fault Unit → Prop} (done : ∀ now', e = .ok now' → post (.ok ()) now')
    (failed : ∀ f, lawful (.error f) → post (.error f) now) (kept : lawful (now.changed e).1) :
    (ofExcept (now.changed e).1).Pours law post (now.changed e).2 := by
  cases e with
  | ok now' => exact done now' rfl
  | error f => exact failed f kept

theorem pours_answered {e : Except Fault (α × Machine)} {post : Except Fault α → Machine → Prop}
    {lawful : Except Fault α → Prop} (done : ∀ a now', e = .ok (a, now') → post (.ok a) now')
    (failed : ∀ f, lawful (.error f) → post (.error f) now) (kept : lawful (now.answered e).1) :
    (ofExcept (now.answered e).1).Pours law post (now.answered e).2 := by
  cases e with
  | ok result => exact done result.1 result.2 rfl
  | error f => exact failed f kept

theorem pours_failed {r : Except Fault α} {post : Except Fault α → Machine → Prop}
    {lawful : Except Fault α → Prop} (failed : ∀ f, lawful (.error f) → post (.error f) now)
    (fails : (faultOf r).isSome = true) (kept : lawful r) : (ofExcept r).Pours law post now := by
  cases r with
  | ok a => cases fails
  | error f => exact failed f kept

theorem pours_openRead {post : Except Fault Int → Machine → Prop}
    (done : ∀ number now', now.openRead path = .ok (number, now') → post (.ok number) now')
    (failed : ∀ f, law (.openRead path) (.error f) → post (.error f) now) :
    (openRead path).Pours law post now := by
  refine ⟨trivial, fun r now' ⟨step, kept⟩ => ?_⟩
  cases step with
  | answered => exact pours_answered done failed kept
  | failed _ _ fails => exact pours_failed failed fails kept

theorem pours_openExclusive {post : Except Fault Int → Machine → Prop}
    (done : ∀ number now', now.openExclusive path freshFileMode = .ok (number, now') →
      post (.ok number) now')
    (failed : ∀ f, law (.openExclusive path freshFileMode) (.error f) → post (.error f) now) :
    (openExclusive path).Pours law post now := by
  refine ⟨trivial, fun r now' ⟨step, kept⟩ => ?_⟩
  cases step with
  | answered => exact pours_answered done failed kept
  | failed _ _ fails => exact pours_failed failed fails kept

section

variable {post : Except Fault Unit → Machine → Prop}

theorem pours_truncate {length : Int}
    (done : ∀ now', now.truncate path length = .ok now' → post (.ok ()) now')
    (failed : ∀ f, law (.truncate path length) (.error f) → post (.error f) now) :
    (truncate path length).Pours law post now := by
  refine ⟨trivial, fun r now' ⟨step, kept⟩ => ?_⟩
  cases step with
  | answered => exact pours_changed done failed kept
  | failed _ _ fails => exact pours_failed failed fails kept

theorem pours_chown {uid gid : Int}
    (done : ∀ now', now.chown true path uid gid = .ok now' → post (.ok ()) now')
    (failed : ∀ f, law (.chown path uid gid) (.error f) → post (.error f) now) :
    (chown path uid gid).Pours law post now := by
  refine ⟨trivial, fun r now' ⟨step, kept⟩ => ?_⟩
  cases step with
  | answered => exact pours_changed done failed kept
  | failed _ _ fails => exact pours_failed failed fails kept

theorem pours_chmod {mode : Int}
    (done : ∀ now', now.chmod path mode = .ok now' → post (.ok ()) now')
    (failed : ∀ f, law (.chmod path mode) (.error f) → post (.error f) now) :
    (chmod path mode).Pours law post now := by
  refine ⟨trivial, fun r now' ⟨step, kept⟩ => ?_⟩
  cases step with
  | answered => exact pours_changed done failed kept
  | failed _ _ fails => exact pours_failed failed fails kept

theorem pours_close {number : Int}
    (done : ∀ now', now.close number = .ok now' → post (.ok ()) now')
    (failed : ∀ f, law (.close number) (.error f) → post (.error f) now) :
    (close number).Pours law post now := by
  refine ⟨trivial, fun r now' ⟨step, kept⟩ => ?_⟩
  cases step with
  | answered => exact pours_changed done failed kept
  | failed _ _ fails => exact pours_failed failed fails kept

end

/-! ## Pieces -/

theorem pours_read {size : Int} {post : Except Fault (List UInt8) → Machine → Prop} (some : size ≠ 0)
    (h : Pouring m s i content? reading writing offset copied now)
    (done : ∀ piece now',
      Pouring m s i content? reading writing (offset + piece.length) copied now' →
      piece <+: (content?.getD []).drop offset → (piece = [] → IsWhole content? offset) →
      post (.ok piece) now')
    (failed : ∀ f, law (.read reading size) (.error f) → post (.error f) now) :
    (read reading size).Pours law post now := by
  have drew {less : Int} (some : less ≠ 0) (piece : List UInt8) (now' : Machine)
      (drawn : now.read reading less = .ok (piece, now')) : post (.ok piece) now' := by
    obtain ⟨next, part, ended⟩ := h.drawn_next some drawn
    exact done piece now' next part ended
  refine ⟨trivial, fun r now' ⟨step, kept⟩ => ?_⟩
  cases step with
  | answered => exact pours_answered (drew some) failed kept
  | readLess less _ more => exact pours_answered (drew (Int.ne_of_gt more)) failed kept
  | failed _ _ fails => exact pours_failed failed fails kept

theorem pours_write {bytes : List UInt8} {post : Except Fault Int → Machine → Prop}
    (o : Vacant m path s) (h : Pouring m s i content? reading writing offset copied now)
    (next : bytes <+: (content?.getD []).drop copied)
    (done : ∀ (count : Nat) now',
      Pouring m s i content? reading writing offset (copied + count) now' → post (.ok count) now')
    (failed : ∀ f, law (.write writing bytes) (.error f) → post (.error f) now) :
    (write writing bytes).Pours law post now := by
  have took {part : List UInt8} (next : part <+: (content?.getD []).drop copied) (written : Int)
      (now' : Machine) (wrote : now.write writing part = .ok (written, now')) :
      post (.ok written) now' := by
    obtain ⟨rfl, poured⟩ := h.written o next wrote
    exact done part.length now' poured
  refine ⟨trivial, fun r now' ⟨step, kept⟩ => ?_⟩
  cases step with
  | answered => exact pours_answered (took next) failed kept
  | wroteLess less =>
    exact pours_answered (took ((List.take_prefix less bytes).trans next)) failed kept
  | failed _ _ fails => exact pours_failed failed fails kept

theorem pours_pause (now : Machine) :
    pause.Pours law (fun out now' => out = .ok () ∧ SameFiles now now') now := by
  refine ⟨trivial, fun r now' ⟨step, _⟩ => ?_⟩
  cases step with
  | answered => exact ⟨rfl, .refl now⟩
  | paused same => exact ⟨rfl, same⟩
  | failed _ own => cases own

/-! ## Further steps -/

/-- A further step on a new file, which counts only if all steps before it went well. -/
theorem finish_pours {p : Program Unit} {k : Except SystemError Unit → Program StepResult}
    {result : StepResult} {f : Node → Node}
    (tried : p.Pours law (fun out now' => (out = .ok () ∧ Filed m s (f n) now') ∨
      ∃ fault, out = .error fault ∧ (fair → fault.IsSystem) ∧ Filed m s n now') now)
    (onward : k (.ok ()) = .done result)
    (caught : ∀ e, ∃ level event details kind, k (.error e) =
      (log level event details).bind fun _ => .done (firstFailure result kind path e)) :
    ((attempt p).bind k).Pours law (fun out now' =>
      (∃ n', Filed m s n' now' ∧ (n' = n ∨ n' = f n) ∧ ∀ result', out = .ok result' →
        result'.success = true → result.success = true ∧ n' = f n) ∧
      (fair → ∃ result', out = .ok result')) now := by
  refine tried.attempt (fun _ now' reached => ?_) (fun e now' reached => ?_)
    fun fault now' other reached => ?_
  · rcases reached with ⟨_, filed⟩ | ⟨_, bad, _⟩
    · rw [onward]
      exact ⟨⟨f n, filed, .inr rfl, fun _ same well => ⟨by cases same; exact well, rfl⟩⟩,
        fun _ => ⟨_, rfl⟩⟩
    · cases bad
  · rcases reached with ⟨bad, _⟩ | ⟨_, same, _, filed⟩
    · cases bad
    cases same
    obtain ⟨level, event, details, kind, caught⟩ := caught e
    rw [caught]
    refine pours_log ⟨⟨n, filed, .inl rfl, fun _ same well => ?_⟩, fun _ => ⟨_, rfl⟩⟩
    -- the failure counts, or an earlier one does
    cases same
    unfold firstFailure at well
    split at well
    · cases well
    · next failed => exact absurd well failed
  · rcases reached with ⟨bad, _⟩ | ⟨_, same, system, filed⟩
    · cases bad
    cases same
    refine ⟨⟨n, filed, .inl rfl, fun _ bad => by cases bad⟩, fun fair => ?_⟩
    obtain ⟨e, same⟩ := system fair
    exact absurd same (other e)

theorem closeQuietly_pours (orderly : fair → ∀ c r, law c r → Orderly c r) (number : Int)
    (event path : String) (now : Machine) :
    (closeQuietly number event path).Pours law (fun out now' =>
      now'.tree = now.tree ∧ now'.current = now.current ∧ (fair → out = .ok ())) now := by
  have closed : (close number).Pours law (fun out now' => now'.tree = now.tree ∧
      now'.current = now.current ∧ (fair → FailsOrderly out)) now := by
    refine pours_close (fun now' done => ?_) fun f lawful => ?_
    · obtain ⟨_, _, done⟩ := bind_eq_ok.mp done
      cases done
      exact ⟨rfl, rfl, fun _ => .ok _⟩
    · exact ⟨rfl, rfl, fun fair => orderly fair _ _ lawful⟩
  refine closed.attempt (fun _ now' reached => ?_) (fun e now' reached => ?_)
    fun f now' other reached => ?_
  · exact ⟨reached.1, reached.2.1, fun _ => rfl⟩
  · exact pours_log ⟨reached.1, reached.2.1, fun _ => rfl⟩
  · refine ⟨reached.1, reached.2.1, fun fair => ?_⟩
    obtain ⟨e, same⟩ := reached.2.2 fair f rfl
    exact absurd same (other e)

/-- What is known of a copy is still true when a file was closed. -/
theorem ensuring_pours (good : Except Fault StepResult → Machine → Prop)
    (orderly : fair → ∀ c r, law c r → Orderly c r) {body : Program StepResult}
    (same : ∀ out now now', now'.tree = now.tree → now'.current = now.current → good out now →
      good out now') (failed : ∀ out f now, good out now → good (.error f) now) (number : Int)
    (event path : String)
    (h : body.Pours law (fun out now' => good out now' ∧ (fair → ∃ result, out = .ok result)) now) :
    (ensuring body (closeQuietly number event path)).Pours law
      (fun out now' => good out now' ∧ (fair → ∃ result, out = .ok result)) now := by
  refine h.ensuring fun out now' reached => ?_
  refine (closeQuietly_pours orderly number event path now').mono fun closed now'' ends => ?_
  obtain ⟨tree, current, fine⟩ := ends
  have kept := same out now' now'' tree current reached.1
  cases closed with
  | ok _ => exact ⟨kept, reached.2⟩
  | error f => exact ⟨failed out f now'' kept, fun fair => by cases fine fair⟩

/-! ## Copies -/

/-- How a new file is filled: with a first part of the content, and with all of it, and with an owner
and a mode, if it is said to be copied. -/
def Poured (m : Machine) (s : Spot) (c : Cloner) (mode : Int) (content? : Option (List UInt8))
    (out : Except Fault StepResult) (now : Machine) : Prop :=
  ∃ n count, Filed m s n now ∧ n.body = .file ((content?.getD []).take count) ∧
    ∀ result, out = .ok result → result.success = true → IsWhole content? count ∧
      n = { (m.newFile s.directory ((content?.getD []).take count)).giveTo c.uid c.gid with
        mode := grantedBits mode 0o7777 }

theorem Poured.same {c : Cloner} {mode : Int} {out : Except Fault StepResult} {now' : Machine}
    (tree : now'.tree = now.tree) (current : now'.current = now.current)
    (h : Poured m s c mode content? out now) : Poured m s c mode content? out now' := by
  obtain ⟨n, count, filed, rest⟩ := h
  exact ⟨n, count, filed.same tree current, rest⟩

theorem Poured.failed {c : Cloner} {mode : Int} {out : Except Fault StepResult} (f : Fault)
    (h : Poured m s c mode content? out now) : Poured m s c mode content? (.error f) now := by
  obtain ⟨n, count, filed, body, _⟩ := h
  exact ⟨n, count, filed, body, fun _ bad => by cases bad⟩

section

variable (o : Vacant m path s) (orderly : fair → ∀ c r, law c r → Orderly c r)
include o orderly

/-- Whatever happens, a first part of the content is in the new file, and all of it unless something is
said. -/
theorem copyPieces_pours {size : Int} {pieces : Nat} (some : size ≠ 0)
    (enough : fair → (content?.getD []).length < copied + pieces)
    (h : Pouring m s i content? reading writing copied copied now) :
    (copyPieces reading writing size pieces).Pours law (fun out now' =>
      (∃ count, Filed m s (m.newFile s.directory ((content?.getD []).take count)) now' ∧
        (out = .ok none → IsWhole content? count)) ∧ (fair → FailsOrderly out)) now := by
  -- what was written keeps up with what was read, and each piece has a byte at least
  induction pieces generalizing copied now with
  | zero =>
    exact ⟨⟨copied, h.filed, fun bad => by cases bad⟩, fun fair => absurd h.within
      (Nat.not_le.mpr (enough fair))⟩
  | succ pieces ih =>
    refine meets_bind.mpr (pours_read some h (fun piece between read next ended => ?_) fun f lawful => ?_)
    · change Pours law (if piece.isEmpty then _ else _) _ _
      split
      · next none => exact ⟨⟨copied, read.filed, fun _ => ended (List.isEmpty_iff.mp none)⟩,
          fun _ => .ok _⟩
      next more =>
      have nonempty := List.length_pos_iff.mpr fun none => more (List.isEmpty_iff.mpr none)
      refine meets_bind.mpr (pours_write o read next (fun count now' wrote => ?_) fun f lawful => ?_)
      · change Pours law (if (count : Int) ≠ piece.length then _ else _) _ _
        split
        · exact ⟨⟨_, wrote.filed, fun bad => by cases bad⟩, fun _ => .ok _⟩
        -- only a piece that was taken whole is followed by another one
        next whole =>
        have whole : count = piece.length := by omega
        subst whole
        refine (pours_pause now').bind (fun _ after reached => ?_) fun f _ bad => by cases bad.1
        exact ih (fun fair => by have := enough fair; omega) (wrote.sameFiles reached.2)
      · exact ⟨⟨copied, read.filed, fun bad => by cases bad⟩, fun fair =>
          FailsOrderly.fault (orderly fair _ _ lawful)⟩
    · exact ⟨⟨copied, h.filed, fun bad => by cases bad⟩, fun fair =>
        FailsOrderly.fault (orderly fair _ _ lawful)⟩

/-- The stream of a file says whether all of it was copied. -/
theorem stream_pours {c : Cloner} (some : c.chunkSize ≠ 0)
    (enough : fair → (content?.getD []).length < c.limits.pieces)
    (h : Pouring m s i content? reading writing 0 0 now) :
    (stream c reading writing path).Pours law (fun out now' =>
      (∃ count, Filed m s (m.newFile s.directory ((content?.getD []).take count)) now' ∧
        ∀ result, out = .ok result → result.success = true → IsWhole content? count) ∧
      (fair → ∃ result, out = .ok result)) now := by
  have copied : (copyPieces reading writing c.chunkSize c.limits.pieces).Pours law (fun out now' =>
      (∃ count, Filed m s (m.newFile s.directory ((content?.getD []).take count)) now' ∧
        (out = .ok none → IsWhole content? count)) ∧ (fair → FailsOrderly out)) now :=
    copyPieces_pours o orderly some (by simpa using enough) h
  refine Meets.attempt (q := fun out now' =>
    (∃ count, Filed m s (m.newFile s.directory ((content?.getD []).take count)) now' ∧
      ∀ result, out = .ok result → result.success = true → IsWhole content? count) ∧
    (fair → FailsOrderly out)) (copied.bind (fun ended now' reached => ?_) fun f now' reached => ?_)
    (fun result now' reached => ?_) (fun e now' reached => ?_) fun f now' other reached => ?_
  · obtain ⟨⟨count, filed, whole⟩, _⟩ := reached
    cases ended with
    | none => exact ⟨⟨count, filed, fun _ _ _ => whole rfl⟩, fun _ => .ok _⟩
    | some short =>
      refine pours_log ⟨⟨count, filed, fun _ same failed => ?_⟩, fun _ => .ok _⟩
      cases same
      cases failed
  · obtain ⟨⟨count, filed, _⟩, fails⟩ := reached
    exact ⟨⟨count, filed, fun _ bad => by cases bad⟩, fun fair _ same => fails fair _ (by cases same; rfl)⟩
  · obtain ⟨⟨count, filed, whole⟩, _⟩ := reached
    exact ⟨⟨count, filed, fun _ same => by cases same; exact whole result rfl⟩, fun _ => ⟨_, rfl⟩⟩
  · obtain ⟨⟨count, filed, _⟩, _⟩ := reached
    refine pours_log ⟨⟨count, filed, fun _ same failed => ?_⟩, fun _ => ⟨_, rfl⟩⟩
    cases same
    cases failed
  · obtain ⟨⟨count, filed, _⟩, fails⟩ := reached
    refine ⟨⟨count, filed, fun _ bad => by cases bad⟩, fun fair => ?_⟩
    obtain ⟨e, same⟩ := fails fair f rfl
    exact absurd same (other e)

section

variable (h : Filed m s n now) (noLink : n.target? = none) (result : StepResult)
include h noLink

theorem finishOwner_pours (c : Cloner) :
    (finishOwner c path result).Pours law (fun out now' =>
      (∃ n', Filed m s n' now' ∧ (n' = n ∨ n' = n.giveTo c.uid c.gid) ∧ ∀ result',
        out = .ok result' → result'.success = true →
          result.success = true ∧ n' = n.giveTo c.uid c.gid) ∧
      (fair → ∃ result', out = .ok result')) now := by
  refine finish_pours (f := Node.giveTo c.uid c.gid) (pours_chown (fun now' done => ?_)
    fun fault lawful => ?_) rfl fun e => ⟨_, _, _, _, rfl⟩
  · exact .inl ⟨rfl, h.changed_path o noLink (chown_ok done)⟩
  · exact .inr ⟨fault, rfl, fun fair => orderly fair _ _ lawful fault rfl, h⟩

theorem finishMode_pours (mode : Int) :
    (finishMode path mode result).Pours law (fun out now' =>
      (∃ n', Filed m s n' now' ∧ (n' = n ∨ n' = { n with mode := grantedBits mode 0o7777 }) ∧
        ∀ result', out = .ok result' → result'.success = true →
          result.success = true ∧ n' = { n with mode := grantedBits mode 0o7777 }) ∧
      (fair → ∃ result', out = .ok result')) now := by
  refine finish_pours (f := fun n => { n with mode := grantedBits mode 0o7777 })
    (pours_chmod (fun now' done => ?_) fun fault lawful => ?_) rfl fun e => ⟨_, _, _, _, rfl⟩
  · exact .inl ⟨rfl, h.changed_path o noLink (chmod_ok done)⟩
  · exact .inr ⟨fault, rfl, fun fair => orderly fair _ _ lawful fault rfl, h⟩

end

theorem fillFile_pours {c : Cloner} {mode : Int} (some : c.chunkSize ≠ 0)
    (enough : fair → (content?.getD []).length < c.limits.pieces)
    (h : Pouring m s i content? reading writing 0 0 now) :
    (fillFile c reading writing path mode).Pours law
      (fun out now' => Poured m s c mode content? out now' ∧ (fair → ∃ result, out = .ok result))
      now := by
  have finished (now : Machine) (h : Pouring m s i content? reading writing 0 0 now) :
      ((stream c reading writing path).bind fun result => do
          let result ← finishOwner c path result
          finishMode path mode result).Pours law
        (fun out now' => Poured m s c mode content? out now' ∧ (fair → ∃ result, out = .ok result))
        now := by
    refine (stream_pours o orderly some enough h).bind (fun result now' reached => ?_)
      fun f now' reached => ?_
    · obtain ⟨⟨count, filed, whole⟩, _⟩ := reached
      refine (finishOwner_pours o orderly filed rfl result c).bind (fun result' now' reached => ?_)
        fun f now' reached => ?_
      · obtain ⟨⟨n, filed, owner, told⟩, _⟩ := reached
        have body : n.body = .file ((content?.getD []).take count) := by
          rcases owner with rfl | rfl <;> rfl
        have noLink : n.target? = none := by rw [Node.target?, body]
        refine (finishMode_pours o orderly filed noLink result' mode).mono fun out now' reached => ?_
        obtain ⟨⟨n', filed, moded, told'⟩, fine⟩ := reached
        refine ⟨⟨n', count, filed, ?_, fun result'' same well => ?_⟩, fine⟩
        · rcases moded with rfl | rfl <;> exact body
        · obtain ⟨well', rfl⟩ := told' result'' same well
          obtain ⟨well, rfl⟩ := told result' rfl well'
          exact ⟨whole result rfl well, rfl⟩
      · obtain ⟨⟨n, filed, owner, _⟩, fine⟩ := reached
        refine ⟨⟨n, count, filed, by rcases owner with rfl | rfl <;> rfl, fun _ bad => by cases bad⟩,
          fun fair => ?_⟩
        obtain ⟨_, bad⟩ := fine fair
        cases bad
    · obtain ⟨⟨count, filed, _⟩, fine⟩ := reached
      refine ⟨⟨_, count, filed, rfl, fun _ bad => by cases bad⟩, fun fair => ?_⟩
      obtain ⟨_, bad⟩ := fine fair
      cases bad
  have filled (now : Machine) (h : Pouring m s i content? reading writing 0 0 now) :
      (ensuring ((stream c reading writing path).bind fun result => do
          let result ← finishOwner c path result
          finishMode path mode result)
        (closeQuietly writing "Error closing destination file" path)).Pours law
        (fun out now' => Poured m s c mode content? out now' ∧ (fair → ∃ result, out = .ok result))
        now :=
    ensuring_pours (Poured m s c mode content?) orderly
      (fun _ _ _ tree current => Poured.same tree current) (fun _ f _ => Poured.failed f) writing _ path
      (finished now h)
  refine Meets.attempt (q := fun out now' => Pouring m s i content? reading writing 0 0 now' ∧
    (fair → FailsOrderly out)) (pours_truncate (fun now' done => ?_) fun f lawful => ?_)
    (fun _ now' reached => filled now' reached.1) (fun e now' reached => ?_)
    fun f now' other reached => ?_
  · exact ⟨h.truncated o done, fun _ => .ok _⟩
  · exact ⟨h, fun fair => orderly fair _ _ lawful⟩
  · exact pours_log (filled now' reached.1)
  · refine ⟨⟨_, 0, reached.1.filed, rfl, fun _ bad => by cases bad⟩, fun fair => ?_⟩
    obtain ⟨e, same⟩ := reached.2 fair f rfl
    exact absurd same (other e)

end

/-- How copying a file ends: with no file made, which is said, or with a new file that is filled. -/
inductive Copied (m : Machine) (source path : String) (c : Cloner) (mode : Int) :
    Except Fault StepResult → Machine → Prop
  | nothing {out : Except Fault StepResult} {now : Machine} (tree : now.tree = m.tree)
      (said : ∀ result, out = .ok result → result.success = false) :
      Copied m source path c mode out now
  | file {out : Except Fault StepResult} {now : Machine} {s : Spot} (o : Vacant m path s)
      (filled : Poured m s c mode (m.contentOf source).toOption out now) :
      Copied m source path c mode out now

theorem Copied.same {c : Cloner} {mode : Int} {out : Except Fault StepResult} {now' : Machine}
    (tree : now'.tree = now.tree) (current : now'.current = now.current)
    (h : Copied m source path c mode out now) : Copied m source path c mode out now' := by
  cases h with
  | nothing same said => exact .nothing (tree.trans same) said
  | file o filled => exact .file o (filled.same tree current)

theorem Copied.failed {c : Cloner} {mode : Int} {out : Except Fault StepResult} (f : Fault)
    (h : Copied m source path c mode out now) : Copied m source path c mode (.error f) now := by
  cases h with
  | nothing same => exact .nothing same fun _ bad => by cases bad
  | file o filled => exact .file o (filled.failed f)

/-- What a copy comes to at its path. -/
theorem Copied.outcome {c : Cloner} {mode : Int} {out : Except Fault StepResult}
    (h : Copied m source path c mode out now) :
    (now.tree = m.tree ∧ ∀ result, out = .ok result → result.success = false) ∨
      ∃ s new piece, m.tree.spot m.current path = .ok s ∧
        m.tree.child? s.directory s.name = none ∧
        now.tree = m.tree.create s.directory s.name new ∧
        now.find true path = .ok (m.tree.nextPlace, new) ∧
        new.body = .file piece ∧ piece <+: (m.contentOf source).toOption.getD [] ∧
        ∀ result, out = .ok result → result.success = true →
          m.contentOf source = .ok piece ∧ new.uid = newId m.effectiveUid c.uid ∧
          new.gid = newId m.effectiveGid c.gid ∧ new.mode = grantedBits mode 0o7777 := by
  cases h with
  | nothing tree said => exact .inl ⟨tree, said⟩
  | file o filled =>
    obtain ⟨n, count, filed, body, told⟩ := filled
    have noLink : n.target? = none := by rw [Node.target?, body]
    refine .inr ⟨_, n, _, o.spot, o.free, filed.tree, filed.find o noLink, body,
      List.take_prefix _ _, fun result same well => ?_⟩
    obtain ⟨⟨content, read, whole⟩, rfl⟩ := told result same well
    cases found : m.contentOf source with
    | error f =>
      rw [found] at read
      cases read
    | ok content' =>
      rw [found] at read
      cases read
      refine ⟨?_, rfl, rfl, rfl⟩
      exact congrArg Except.ok (List.take_of_length_le whole).symm

/-- A file is copied to a new file, or nothing is done. -/
theorem copyFile_pours (orderly : fair → ∀ c r, law c r → Orderly c r) {c : Cloner} {mode : Int}
    (some : c.chunkSize ≠ 0)
    (enough : fair → ((m.contentOf source).toOption.getD []).length < c.limits.pieces) :
    (copyFile c source path mode).Pours law
      (fun out now => Copied m source path c mode out now ∧ (fair → ∃ result, out = .ok result)) m := by
  refine Meets.attempt (q := fun out now => now.tree = m.tree ∧ (fair → FailsOrderly out) ∧
    ∀ number, out = .ok number → m.openRead source = .ok (number, now))
    (pours_openRead (fun number now done => ?_) fun f lawful => ?_) (fun reading between reached => ?_)
    (fun e now reached => ?_) fun f now other reached => ?_
  · exact ⟨(openRead_sameTree done).1, fun _ => .ok _, fun _ same => by cases same; exact done⟩
  · exact ⟨rfl, fun fair => orderly fair _ _ lawful, fun _ bad => by cases bad⟩
  · obtain ⟨tree, _, opened⟩ := reached
    have opened := opened reading rfl
    refine ensuring_pours (Copied m source path c mode) orderly
      (fun _ _ _ tree current => Copied.same tree current) (fun _ f _ => Copied.failed f) reading _
      source ?_
    refine Meets.attempt (q := fun out now => (fair → FailsOrderly out) ∧
      (∀ f, out = .error f → now.tree = m.tree) ∧ ∀ number, out = .ok number →
        between.openExclusive path freshFileMode = .ok (number, now))
      (pours_openExclusive (fun number now done => ?_) fun f lawful => ?_)
      (fun writing now reached => ?_) (fun e now reached => ?_) fun f now other reached => ?_
    · exact ⟨fun _ => .ok _, fun _ bad => (by cases bad), fun _ same => by cases same; exact done⟩
    · exact ⟨fun fair => orderly fair _ _ lawful, fun _ _ => tree, fun _ bad => by cases bad⟩
    · obtain ⟨s, i, o, pouring⟩ := Pouring.start opened (reached.2.2 writing rfl)
      refine (fillFile_pours o orderly some enough pouring).mono fun out now ends => ?_
      exact ⟨.file o ends.1, ends.2⟩
    · refine pours_log ⟨.nothing (reached.2.1 _ rfl) fun _ same => ?_, fun _ => ⟨_, rfl⟩⟩
      cases same
      rfl
    · refine ⟨.nothing (reached.2.1 _ rfl) fun _ bad => (by cases bad), fun fair => ?_⟩
      obtain ⟨e, same⟩ := reached.1 fair f rfl
      exact absurd same (other e)
  · refine pours_log ⟨.nothing reached.1 fun _ same => ?_, fun _ => ⟨_, rfl⟩⟩
    cases same
    rfl
  · refine ⟨.nothing reached.1 fun _ bad => (by cases bad), fun fair => ?_⟩
    obtain ⟨e, same⟩ := reached.2.1 fair f rfl
    exact absurd same (other e)

end Program

end HomeProvision
