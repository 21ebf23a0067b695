/-
# Where functions come from

A function is wrapped when it is registered, and after that its handle is
only ever copied: with a table, with a scope, or on its own.  `Lineage`
follows these copies through the commands of a session.  It knows nothing of
hosts and handles: for every name in a table it keeps which command wrapped
the function, and how many that command had wrapped before.

A command registers as many functions as it wraps, one behind the other, so
the log grows at its end and the places in it are those of the table of the
host (`Logs`).  Nothing is ever removed from that table, which is why a
handle that was given out keeps its meaning.

Most commands are idle as far as functions go.  For them nothing changes on
either side (`alike_step`, `step_of_idle`), and only those that are left are
gone through one by one in `tracks_step`.

**Proved here.** Handles tell where functions come from: at any two times,
what two names stand for has the same handle exactly if it was wrapped at
one and the same time (`exists_log`).  The invariant is a log of all
wrappings in their order, in which a handle is a place: `Tracks` says that
handles and lineage agree by it, and that it names nothing twice.
-/
import Mathlib.Data.List.Nodup
import Mathlib.Data.List.Range
import Arith.Session

namespace Arith

/-! ## Lineages

A second account of a session, in which functions are known by their birth
and nothing is evaluated. -/

/-- Where a function was wrapped: by which command, and how many that command had wrapped before. -/
structure Birth where
  command : Nat
  nth : Nat
deriving DecidableEq

structure Lineage where
  scopes : NameMap (NameMap Birth)
  tables : NameMap (NameMap Birth)
  handles : NameMap Birth

namespace Lineage

/-- Nothing is kept. -/
def empty : Lineage := ⟨∅, ∅, ∅⟩

/-- The functions that are there from the start, wrapped by the command `now`. -/
def builtins (now : Nat) : NameMap Birth :=
  Builtin.all.zipIdx.foldl (fun t (b, nth) => t.insert b.name ⟨now, nth⟩) ∅

/-- What the command `now` does. -/
def step (now : Nat) (l : Lineage) : Session.Command → Lineage
  | .newScope scope => { l with scopes := l.scopes.insert scope (builtins now) }
  | .newScopeWith scope table =>
    match l.tables[table]? with
    | some t => { l with scopes := l.scopes.insert scope t }
    | none => l
  | .copyScope scope target =>
    match l.scopes[scope]? with
    | some t => { l with scopes := l.scopes.insert target t }
    | none => l
  | .setFunction scope name _ =>
    match l.scopes[scope]? with
    | some t => { l with scopes := l.scopes.insert scope (t.insert name ⟨now, 0⟩) }
    | none => l
  | .newTable table => { l with tables := l.tables.insert table ∅ }
  | .newBuiltinTable table => { l with tables := l.tables.insert table (builtins now) }
  | .copyTable table target =>
    match l.tables[table]? with
    | some t => { l with tables := l.tables.insert target t }
    | none => l
  | .insert table name _ =>
    match l.tables[table]? with
    | some t => { l with tables := l.tables.insert table (t.insert name ⟨now, 0⟩) }
    | none => l
  | .newHandle handle _ => { l with handles := l.handles.insert handle ⟨now, 0⟩ }
  | .insertHandle table name handle =>
    match l.handles[handle]?, l.tables[table]? with
    | some b, some t => { l with tables := l.tables.insert table (t.insert name b) }
    | _, _ => l
  | _ => l

/-- What some commands do, of which the first is the command `now`. -/
def steps (now : Nat) (l : Lineage) : List Session.Command → Lineage
  | [] => l
  | c :: cs => steps (now + 1) (l.step now c) cs

end Lineage

/-! ## Maps that match

What a session keeps under names and what a lineage keeps are compared name
by name. -/

theorem getElem?_insert {α : Type} (m : NameMap α) (name other : String) (a : α) :
    (m.insert name a)[other]? = if name = other then some a else m[other]? := by
  rw [Std.ExtTreeMap.getElem?_insert]
  simp only [Std.LawfulEqCmp.compare_eq_iff_eq]

/-- Two maps have the same names, for things that are related. -/
def Matches {α β : Type} (R : α → β → Prop) (as : NameMap α) (bs : NameMap β) : Prop :=
  ∀ name : String, Option.Rel R as[name]? bs[name]?

namespace Matches

variable {α β : Type} {R R' : α → β → Prop} {as : NameMap α} {bs : NameMap β} {a : α} {b : β}

theorem empty (R : α → β → Prop) : Matches R (∅ : NameMap α) (∅ : NameMap β) := by
  intro name
  rw [Std.ExtTreeMap.getElem?_empty, Std.ExtTreeMap.getElem?_empty]
  exact .none

theorem insert (h : Matches R as bs) (r : R a b) (name : String) :
    Matches R (as.insert name a) (bs.insert name b) := by
  intro other
  rw [getElem?_insert, getElem?_insert]
  split
  · exact .some r
  · exact h other

theorem mono (h : Matches R as bs) (le : ∀ a b, R a b → R' a b) : Matches R' as bs := by
  intro name
  have found := h name
  generalize as[name]? = x, bs[name]? = y at found ⊢
  cases found with
  | some r => exact .some (le _ _ r)
  | none => exact .none

theorem exists_of_get (h : Matches R as bs) {name : String} (found : as[name]? = some a) :
    ∃ b, bs[name]? = some b ∧ R a b := by
  have both := h name
  rw [found] at both
  generalize bs[name]? = y at both
  cases both with
  | some r => exact ⟨_, rfl, r⟩

theorem get_eq_none (h : Matches R as bs) {name : String} (absent : as[name]? = none) :
    bs[name]? = none := by
  have both := h name
  rw [absent] at both
  generalize bs[name]? = y at both
  cases both
  rfl

/-- One thing may be replaced by another that is related to the same. -/
theorem replace (h : Matches R as bs) {name : String} {a' : α} (found : as[name]? = some a)
    (le : ∀ b, R a b → R a' b) : Matches R (as.insert name a') bs := by
  intro other
  rw [getElem?_insert]
  split
  next same =>
    subst same
    obtain ⟨b, found', r⟩ := h.exists_of_get found
    rw [found']
    exact .some (le b r)
  · exact h other

end Matches

/-! ## The log

The two accounts are connected by a list in which every birth stands once,
at the place that is the handle of the function. -/

/-- What the command `now` wraps. -/
def births (now count : Nat) : List Birth := (List.range count).map (⟨now, ·⟩)

/-- A handle is the place of its function in the log. -/
def BornAs (log : List Birth) (h : Handle) (b : Birth) : Prop := log[h.id]? = some b

/-- A log of all functions that a host has registered before the command `now`. -/
structure Logs (log : List Birth) (now : Nat) (host : Host) : Prop where
  length_eq : log.length = host.functions.size
  nodup : log.Nodup
  past : ∀ b ∈ log, b.command < now

/-- The tables, scopes and handles of a session and their lineage agree by a log. -/
structure Tracks (log : List Birth) (s : Session) (l : Lineage) : Prop where
  scopes : Matches (fun c : Scope => Matches (BornAs log) c.functions.handles) s.scopes l.scopes
  tables : Matches (fun t : FunctionTable => Matches (BornAs log) t.handles) s.tables l.tables
  handles : Matches (BornAs log) s.handles l.handles

theorem BornAs.append {log : List Birth} {h : Handle} {b : Birth} (born : BornAs log h b)
    (more : List Birth) : BornAs (log ++ more) h b := by
  rw [BornAs, List.getElem?_append_left (List.getElem?_eq_some_iff.mp born).1]
  exact born

theorem Tracks.append {log : List Birth} {s : Session} {l : Lineage} (h : Tracks log s l)
    (more : List Birth) : Tracks (log ++ more) s l where
  scopes := h.scopes.mono fun _ _ t => t.mono fun _ _ born => born.append more
  tables := h.tables.mono fun _ _ t => t.mono fun _ _ born => born.append more
  handles := h.handles.mono fun _ _ born => born.append more

namespace Logs

variable {log : List Birth} {now : Nat} {host host' : Host}

/-- What a command registers is written behind what was registered before. -/
theorem grow (h : Logs log now host) (le : host.functions.size ≤ host'.functions.size) :
    Logs (log ++ births now (host'.functions.size - host.functions.size)) (now + 1) host' where
  length_eq := by
    rw [List.length_append, births, List.length_map, List.length_range, h.length_eq]
    omega
  nodup := by
    refine List.nodup_append.mpr ⟨h.nodup, ?_, ?_⟩
    · exact List.Nodup.map (fun i j same => (Birth.mk.inj same).2) List.nodup_range
    · rintro b old b' new rfl
      obtain ⟨i, -, rfl⟩ := List.mem_map.mp new
      exact Nat.lt_irrefl _ (h.past _ old)
  past := by
    rw [List.forall_mem_append]
    refine ⟨fun b mem => Nat.lt_succ_of_lt (h.past b mem), fun b mem => ?_⟩
    obtain ⟨i, -, rfl⟩ := List.mem_map.mp mem
    exact Nat.lt_succ_self now

/-- The handles that a command gives out. -/
theorem bornAs (h : Logs log now host) {count nth : Nat} (lt : nth < count) :
    BornAs (log ++ births now count) ⟨host.functions.size + nth⟩ ⟨now, nth⟩ := by
  have place : log.length + nth = host.functions.size + nth := by rw [h.length_eq]
  rw [BornAs, ← place, List.getElem?_append_right (Nat.le_add_right _ _), Nat.add_sub_cancel_left,
    births, List.getElem?_map, List.getElem?_range lt]
  rfl

end Logs

/-! ## One command

What is kept afterwards, and by how much the log has grown. -/

mutual

theorem size_le_build : ∀ (host : Host) (sketch : Sketch),
    host.functions.size ≤ (sketch.build host).2.functions.size
  | _, .number _ | _, .var _ _ => Nat.le_refl _
  | host, .binary _ left right =>
    Nat.le_trans (size_le_build host left) (size_le_build (left.build host).2 right)
  | host, .negate operand => size_le_build host operand
  | host, .call _ function arguments => by
    have registered : host.functions.size ≤ (host.register function).functions.size := by
      rw [Host.register, Array.size_push]
      exact Nat.le_succ _
    exact Nat.le_trans registered (size_le_buildAll (host.register function) arguments)

theorem size_le_buildAll : ∀ (host : Host) (sketches : List Sketch),
    host.functions.size ≤ (Sketch.buildAll host sketches).2.functions.size
  | _, [] => Nat.le_refl _
  | host, sketch :: sketches =>
    Nat.le_trans (size_le_build host sketch) (size_le_buildAll (sketch.build host).2 sketches)

end

namespace Session

/-- Nothing is different as far as functions and their names go. -/
structure Alike (s s' : Session) : Prop where
  host : s'.host = s.host
  scopes : s'.scopes = s.scopes
  tables : s'.tables = s.tables
  handles : s'.handles = s.handles

theorem Alike.refl (s : Session) : Alike s s := ⟨rfl, rfl, rfl, rfl⟩

theorem Alike.trans {s s' s'' : Session} (h : Alike s s') (h' : Alike s' s'') : Alike s s'' :=
  ⟨h'.host.trans h.host, h'.scopes.trans h.scopes, h'.tables.trans h.tables,
    h'.handles.trans h.handles⟩

theorem alike_look {α : Type} {s : Session} {kept : Option α} {f : α → Outcome}
    (h : ∀ a, Alike s (f a).2.2) : Alike s (s.look kept f).2.2 := by
  cases kept with
  | none => exact .refl s
  | some a => exact h a

theorem alike_run (s : Session) (e : Expr) : Alike s (s.run e).2.2 := ⟨rfl, rfl, rfl, rfl⟩

theorem alike_settle (s : Session) (parsed : Parsed) (records : List Record) :
    Alike s (s.settle parsed records).2.2 := by
  unfold settle
  split
  · exact .refl s
  · exact alike_run s _

/-- Whether a command neither registers a function nor names one. -/
def Command.Idle : Command → Prop
  | .newScope _ | .newScopeWith _ _ | .copyScope _ _ | .setVariable _ _ _ | .setFunction _ _ _
  | .setBindings _ _ | .build _ _ | .newTable _ | .newBuiltinTable _ | .copyTable _ _
  | .insert _ _ _ | .newHandle _ _ | .insertHandle _ _ _ | .call _ _ _ => False
  | _ => True

theorem alike_step (s : Session) {c : Command} (idle : c.Idle) : Alike s (s.step c).2.2 := by
  cases c with
  | newScope | newScopeWith | copyScope | setVariable | setFunction | setBindings | build | newTable
  | newBuiltinTable | copyTable | insert | newHandle | insertHandle | call => exact absurd idle id
  | getVariable | listBindings | listFunctions | lookUp => exact alike_look fun _ => .refl s
  | evaluate scope source =>
    refine alike_look fun c => ?_
    split
    · exact .refl s
    · exact alike_run s _
  | parse scope source tree =>
    refine alike_look fun c => ?_
    split
    · exact .refl s
    · exact ⟨rfl, rfl, rfl, rfl⟩
  | recover scope source tree =>
    refine alike_look fun c => ?_
    split
    · exact .refl s
    next parsed records _ =>
      refine Alike.trans ?_ (alike_settle _ parsed records)
      split
      · exact ⟨rfl, rfl, rfl, rfl⟩
      · exact .refl s
  | parseTokens scope tokens strict =>
    refine alike_look fun c => ?_
    dsimp only
    split
    · split
      · exact .refl s
      · exact alike_run s _
    · exact alike_settle s _ _
  | evaluateTree => exact alike_look fun e => alike_run s e
  | copyTree => exact alike_look fun _ => ⟨rfl, rfl, rfl, rfl⟩
  | equalTrees | compareHandle | equalBindings =>
    exact alike_look fun _ => alike_look fun _ => .refl s
  | newBindings => exact ⟨rfl, rfl, rfl, rfl⟩
  | setBinding => exact alike_look fun _ => ⟨rfl, rfl, rfl, rfl⟩
  | getBinding => exact alike_look fun _ => .refl s

end Session

variable {log : List Birth} {now : Nat} {s s' : Session} {l l' : Lineage}

/-- Hosts and trees do not matter for what is kept under which names. -/
theorem Tracks.congr (h : Tracks log s l) (scopes : s'.scopes = s.scopes)
    (tables : s'.tables = s.tables) (handles : s'.handles = s.handles) : Tracks log s' l where
  scopes := scopes ▸ h.scopes
  tables := tables ▸ h.tables
  handles := handles ▸ h.handles

theorem step_of_idle {c : Session.Command} (idle : c.Idle) (now : Nat) (l : Lineage) :
    l.step now c = l := by
  cases c <;> first | rfl | exact absurd idle id

theorem size_register (host : Host) (f : HostFunction) :
    (host.register f).functions.size = host.functions.size + 1 := Array.size_push _

theorem size_withBuiltins (host : Host) :
    (FunctionTable.withBuiltins host).2.functions.size = host.functions.size + 4 := by
  simp only [FunctionTable.withBuiltins, Builtin.all, List.foldl_cons, List.foldl_nil,
    size_register]

theorem matches_builtins (logs : Logs log now s.host) :
    Matches (BornAs (log ++ births now 4)) (FunctionTable.withBuiltins s.host).1.handles
      (Lineage.builtins now) := by
  have born : ∀ {nth : Nat}, nth < 4 →
      BornAs (log ++ births now 4) ⟨s.host.functions.size + nth⟩ ⟨now, nth⟩ := logs.bornAs
  simp only [FunctionTable.withBuiltins, Builtin.all, List.foldl_cons, List.foldl_nil, Host.fresh,
    size_register, Lineage.builtins, List.zipIdx_cons, List.zipIdx_nil]
  exact ((((Matches.empty _).insert (born (by decide : 0 < 4)) _).insert
    (born (by decide : 1 < 4)) _).insert
    (born (by decide : 2 < 4)) _).insert (born (by decide : 3 < 4)) _

/-- What is known of a session after a command that has registered some functions. -/
def Goes (log : List Birth) (now : Nat) (s' : Session) (l' : Lineage) : Prop :=
  ∃ more, Logs (log ++ more) (now + 1) s'.host ∧ Tracks (log ++ more) s' l'

theorem Logs.goes (logs : Logs log now s.host) (count : Nat)
    (size : s'.host.functions.size = s.host.functions.size + count)
    (h : Tracks (log ++ births now count) s' l') : Goes log now s' l' := by
  have grown := logs.grow (size ▸ Nat.le_add_right _ _)
  rw [size, Nat.add_sub_cancel_left] at grown
  exact ⟨_, grown, h⟩

/-- What is done with something that is kept is done to what it comes from; or nothing is kept. -/
theorem goes_look {α : Type} {kept : Option α} {f : α → Session.Outcome}
    (absent : kept = none → Goes log now s' l')
    (found : ∀ a, kept = some a → Goes log now (f a).2.2 l') :
    Goes log now (s'.look kept f).2.2 l' := by
  cases kept with
  | none => exact absent rfl
  | some a => exact found a rfl

/-- A function gets a name in a table, and its origin is written into that of the table. -/
theorem goes_insertInto {host : Host} (logs : Logs log now s.host) (h : Tracks log s l)
    (count : Nat)
    (size : host.functions.size = s.host.functions.size + count) {callee : Handle} {b : Birth}
    (born : BornAs (log ++ births now count) callee b) (table name : String) :
    Goes log now (({ s with host }).insertInto table name callee).2.2
      (match l.tables[table]? with
        | some t => { l with tables := l.tables.insert table (t.insert name b) }
        | none => l) := by
  have grown := h.append (births now count)
  refine goes_look (fun absent => ?_) fun t found => ?_
  · rw [h.tables.get_eq_none absent]
    exact logs.goes count size (grown.congr rfl rfl rfl)
  · obtain ⟨u, found', r⟩ := grown.tables.exists_of_get found
    rw [found']
    exact logs.goes count size
      { grown with tables := grown.tables.insert (r.insert born name) table }

theorem tracks_step (logs : Logs log now s.host) (h : Tracks log s l) (c : Session.Command) :
    Goes log now (s.step c).2.2 (l.step now c) := by
  have grown := fun count => h.append (births now count)
  have same : Goes log now s l := logs.goes 0 rfl (grown 0)
  -- What an idle command does to a session is settled; the others are those that `Lineage.step`
  -- knows.
  by_cases idle : c.Idle
  · have alike := s.alike_step idle
    rw [step_of_idle idle]
    exact logs.goes 0 (by rw [alike.host]; rfl)
      ((grown 0).congr alike.scopes alike.tables alike.handles)
  cases c with
  | newScope scope =>
    exact logs.goes 4 (size_withBuiltins _)
      { grown 4 with scopes := (grown 4).scopes.insert (matches_builtins logs) scope }
  | newScopeWith scope table =>
    refine goes_look (fun absent => ?_) fun t found => ?_
    · rw [Lineage.step, h.tables.get_eq_none absent]
      exact same
    · obtain ⟨u, found', r⟩ := (grown 0).tables.exists_of_get found
      rw [Lineage.step, found']
      exact logs.goes 0 rfl { grown 0 with scopes := (grown 0).scopes.insert r scope }
  | copyScope scope target =>
    refine goes_look (fun absent => ?_) fun c found => ?_
    · rw [Lineage.step, h.scopes.get_eq_none absent]
      exact same
    · obtain ⟨t, found', r⟩ := (grown 0).scopes.exists_of_get found
      rw [Lineage.step, found']
      exact logs.goes 0 rfl { grown 0 with scopes := (grown 0).scopes.insert r target }
  | setVariable scope name value =>
    refine goes_look (fun _ => same) fun c found => ?_
    exact logs.goes 0 rfl { grown 0 with scopes := (grown 0).scopes.replace found fun _ r => r }
  | setFunction scope name function =>
    refine goes_look (fun absent => ?_) fun c found => ?_
    · rw [Lineage.step, h.scopes.get_eq_none absent]
      exact same
    · obtain ⟨t, found', r⟩ := (grown 1).scopes.exists_of_get found
      rw [Lineage.step, found']
      have inserted := r.insert (logs.bornAs Nat.zero_lt_one) name
      exact logs.goes 1 (size_register _ _)
        { grown 1 with scopes := (grown 1).scopes.insert inserted scope }
  | setBindings scope pairs =>
    refine goes_look (fun _ => same) fun c found => ?_
    exact logs.goes 0 rfl { grown 0 with scopes := (grown 0).scopes.replace found fun _ r => r }
  | build tree sketch =>
    obtain ⟨count, size⟩ := Nat.exists_eq_add_of_le (size_le_build s.host sketch)
    exact logs.goes count size ((grown count).congr rfl rfl rfl)
  | newTable table =>
    exact logs.goes 0 rfl { grown 0 with tables := (grown 0).tables.insert (.empty _) table }
  | newBuiltinTable table =>
    exact logs.goes 4 (size_withBuiltins _)
      { grown 4 with tables := (grown 4).tables.insert (matches_builtins logs) table }
  | copyTable table target =>
    refine goes_look (fun absent => ?_) fun t found => ?_
    · rw [Lineage.step, h.tables.get_eq_none absent]
      exact same
    · obtain ⟨u, found', r⟩ := (grown 0).tables.exists_of_get found
      rw [Lineage.step, found']
      exact logs.goes 0 rfl { grown 0 with tables := (grown 0).tables.insert r target }
  | insert table name function =>
    exact goes_insertInto logs h 1 (size_register _ _) (logs.bornAs Nat.zero_lt_one) table name
  | newHandle handle function =>
    exact logs.goes 1 (size_register _ _)
      { grown 1 with handles := (grown 1).handles.insert (logs.bornAs Nat.zero_lt_one) handle }
  | insertHandle table name handle =>
    refine goes_look (fun absent => ?_) fun callee kept => ?_
    · rw [Lineage.step, h.handles.get_eq_none absent]
      exact same
    · obtain ⟨b, kept', born⟩ := (grown 0).handles.exists_of_get kept
      -- The handle was wrapped before, so nothing is registered, and its birth is looked up.
      have inserted := goes_insertInto logs h 0 rfl born table name
      rw [Lineage.step, kept']
      cases found : l.tables[table]? <;> rw [found] at inserted <;> exact inserted
  | call table name arguments =>
    refine goes_look (fun _ => same) fun t _ => ?_
    dsimp only
    split
    · exact same
    · obtain ⟨count, size⟩ := Nat.exists_eq_add_of_le (size_le_buildAll s.host arguments)
      exact logs.goes count size ((grown count).congr rfl rfl rfl)
  | _ => exact absurd trivial idle

/-! ## All commands

The logs of a run are parts of each other, so the last one may be used for
all times. -/

/-- One log tells all handles of a run, at any time of it. -/
theorem tracks_steps : ∀ (cs : List Session.Command) {log : List Birth} {now : Nat} {s : Session}
    {l : Lineage}, Logs log now s.host → Tracks log s l →
      ∃ more, (log ++ more).Nodup ∧
        ∀ i, Tracks (log ++ more) (s.steps (cs.take i)).2 (l.steps now (cs.take i))
  | [], log, now, s, l, logs, h => by
    refine ⟨[], (List.append_nil log).symm ▸ logs.nodup, fun i => ?_⟩
    rw [List.append_nil, List.take_nil]
    exact h
  | c :: cs, log, now, s, l, logs, h => by
    obtain ⟨more, logs', h'⟩ := tracks_step logs h c
    obtain ⟨rest, nodup, all⟩ := tracks_steps cs logs' h'
    rw [List.append_assoc] at nodup all
    refine ⟨more ++ rest, nodup, fun i => ?_⟩
    cases i with
    | zero => exact h.append (more ++ rest)
    | succ i => exact all i

/-- What is kept before the command with some index. -/
def Session.before (cs : List Session.Command) (i : Nat) : Session :=
  (Session.empty.steps (cs.take i)).2

/-- Where the function was wrapped that a scope has under a name before the command with some
index. -/
def Session.entry (cs : List Session.Command) (i : Nat) (scope name : String) : Option Birth :=
  (Lineage.empty.steps 0 (cs.take i)).scopes[scope]?.bind (·[name]?)

/-- At any time the handles in a scope are the places of its functions in one log. -/
theorem Session.exists_log (cs : List Session.Command) : ∃ log : List Birth, log.Nodup ∧
    ∀ {i : Nat} {scope : String} {c : Scope}, (before cs i).scopes[scope]? = some c →
      ∀ name, Option.Rel (BornAs log) (c.functions.get? name) (entry cs i scope name) := by
  have logs : Logs [] 0 Session.empty.host := ⟨rfl, .nil, List.forall_mem_nil _⟩
  have tracks : Tracks [] Session.empty Lineage.empty := ⟨.empty _, .empty _, .empty _⟩
  obtain ⟨log, nodup, all⟩ := tracks_steps cs logs tracks
  refine ⟨log, nodup, fun {i scope c} kept name => ?_⟩
  obtain ⟨t, found, r⟩ := (all i).scopes.exists_of_get kept
  rw [entry, found]
  exact r name

/-- Functions have the same handle exactly if they were wrapped at the same time. -/
theorem BornAs.eq_iff {log : List Birth} {h h' : Handle} {b b' : Birth} (nodup : log.Nodup)
    (born : BornAs log h b) (born' : BornAs log h' b') : h = h' ↔ b = b' := by
  obtain ⟨id⟩ := h
  obtain ⟨id'⟩ := h'
  constructor
  · rintro ⟨⟩
    exact Option.some.inj (born.symm.trans born')
  · rintro rfl
    obtain ⟨lt, -⟩ := List.getElem?_eq_some_iff.mp born
    exact congrArg Handle.mk ((List.getElem?_inj lt nodup).mp (born.trans born'.symm))

end Arith
