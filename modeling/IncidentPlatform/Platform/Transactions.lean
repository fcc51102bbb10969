import IncidentPlatform.Platform.Rows

namespace IncidentPlatform.Platform

open Concurrency Models Services Storage

/-! # Transactions in the log

The open transaction of a process is what it has logged since its last commit
or rollback.
-/

def Op.ends : Op → Bool
  | .commit | .rollback => true
  | _ => false

theorem Op.ends_cases {operation : Op} (ends : operation.ends = true) :
    operation = .commit ∨ operation = .rollback := by
  cases operation with
  | commit => exact .inl rfl
  | rollback => exact .inr rfl
  | _ => cases ends

theorem ends_eq_false {operation : Op} (uncommitted : operation ≠ .commit)
    (opened : operation ≠ .rollback) : operation.ends = false := by
  cases operation with
  | commit => exact absurd rfl uncommitted
  | rollback => exact absurd rfl opened
  | _ => rfl

theorem Op.Writes.open {world : World} {job : Uuid} {operation : Op} {reply : Reply operation}
    {old : Option Job} {new : Job} (writes : operation.Writes world job old new reply) :
    operation.ends = false := by
  cases operation with
  | statement issued => rfl
  | _ => exact writes.elim

/-- An operation with its reply. -/
abbrev Act := (operation : Op) × Reply operation

section Log

variable {Actor : Type}

def actOf (entry : Entry World Actor Op Reply) : Act := ⟨entry.operation, entry.reply⟩

/-- The entries of the open transaction of `pid`, newest first. -/
def transaction (pid : Pid) : List (Entry World Actor Op Reply) → List (Entry World Actor Op Reply)
  | [] => []
  | entry :: older =>
      if entry.pid = pid then
        if entry.operation.ends then [] else entry :: transaction pid older
      else transaction pid older

/-- What the open transaction of `pid` has done, newest first. -/
def traceOf (pid : Pid) (log : List (Entry World Actor Op Reply)) : List Act :=
  (transaction pid log).map actOf

def extendTrace (trace : List Act) (operation : Op) (reply : Reply operation) : List Act :=
  if operation.ends then [] else ⟨operation, reply⟩ :: trace

theorem extendTrace_of_open {trace : List Act} {operation : Op} (opened : operation.ends = false)
    (reply : Reply operation) : extendTrace trace operation reply = ⟨operation, reply⟩ :: trace := by
  rw [extendTrace, opened]
  rfl

theorem any_extend {trace : List Act} {operation : Op} {reply : Reply operation} {holds : Act → Bool}
    (opened : operation.ends = false) (any : trace.any holds) :
    (extendTrace trace operation reply).any holds := by
  rw [extendTrace_of_open opened, List.any_cons, any, Bool.or_true]

theorem traceOf_cons (pid : Pid) (entry : Entry World Actor Op Reply)
    (older : List (Entry World Actor Op Reply)) :
    traceOf pid (entry :: older) = if entry.pid = pid then
      extendTrace (traceOf pid older) entry.operation entry.reply else traceOf pid older := by
  simp only [traceOf, transaction, extendTrace]
  split
  · split <;> rfl
  · rfl

theorem traceOf_record (pool : Pool World Actor Op Reply) (pid : Pid) (role : Actor) (operation : Op)
    (reply : Reply operation) (rest : Prog Unit) (world : World) (queried : Pid) :
    traceOf queried (pool.record pid role operation reply rest world).log =
      if pid = queried then extendTrace (traceOf queried pool.log) operation reply
      else traceOf queried pool.log :=
  traceOf_cons queried _ _

theorem transaction_mem {pid : Pid} {log : List (Entry World Actor Op Reply)}
    {entry : Entry World Actor Op Reply}
    (member : entry ∈ transaction pid log) : entry ∈ log ∧ entry.pid = pid := by
  induction log with
  | nil => cases member
  | cons first older ih =>
      simp only [transaction] at member
      split at member
      · rename_i own
        split at member
        · cases member
        · rcases List.mem_cons.mp member with same | later
          · rw [same]
            exact ⟨List.mem_cons_self, own⟩
          · exact ⟨List.mem_cons_of_mem _ (ih later).1, (ih later).2⟩
      · exact ⟨List.mem_cons_of_mem _ (ih member).1, (ih member).2⟩

theorem transaction_split {pid : Pid} {log later earlier : List (Entry World Actor Op Reply)}
    {entry : Entry World Actor Op Reply} (split : transaction pid log = later ++ entry :: earlier) :
    ∃ newer older, log = newer ++ entry :: older ∧ transaction pid older = earlier := by
  induction log generalizing later with
  | nil => cases later <;> cases split
  | cons first older ih =>
      simp only [transaction] at split
      split at split
      · split at split
        · cases later <;> cases split
        · cases later with
          | nil =>
              cases split
              exact ⟨[], older, rfl, rfl⟩
          | cons _ later =>
              obtain ⟨newer, rest, same, below⟩ := ih (List.cons.inj split).2
              exact ⟨first :: newer, rest, by rw [same]; rfl, below⟩
      · obtain ⟨newer, rest, same, below⟩ := ih split
        exact ⟨first :: newer, rest, by rw [same]; rfl, below⟩

theorem transaction_unlogged {pid : Pid} {log : List (Entry World Actor Op Reply)}
    (unlogged : ∀ entry ∈ log, entry.pid ≠ pid) : transaction pid log = [] := by
  rw [List.eq_nil_iff_forall_not_mem]
  intro entry member
  obtain ⟨logged, own⟩ := transaction_mem member
  exact unlogged entry logged own

end Log

/-! ## Rules on what a process has done

A rule says which operations a role may perform, given what it remembers: what
its transaction has done so far, or everything it has done.
-/

abbrev Memory := List Act → (operation : Op) → Reply operation → List Act

@[reducible] def remembering (extend : Memory) (allowed : List Act → Op → Prop) :
    Protocol Role Op Reply where
  State := List Act
  start := fun _ => []
  allowed
  advance := extend

@[reducible] def tracing (allowed : List Act → Op → Prop) : Protocol Role Op Reply :=
  remembering extendTrace allowed

def remember : Memory := fun acts operation reply => ⟨operation, reply⟩ :: acts

@[reducible] def recalling (allowed : List Act → Op → Prop) : Protocol Role Op Reply :=
  remembering remember allowed

theorem follows_of_uses {α : Type} {rule : List Act → Op → Prop} {allowed : Op → Prop}
    {program : Prog α} {motive : List Act → Prop} {trace : List Act} (uses : program.Uses allowed)
    (entry : motive trace)
    (kept : ∀ trace operation, motive trace → allowed operation → rule trace operation ∧
      ∀ reply, motive (extendTrace trace operation reply)) :
    program.Follows (tracing rule) trace fun after _ => motive after :=
  Program.Uses.follows uses entry kept

/-- The rules of all roles at once. -/
@[reducible] def ruleProtocol (extend : Memory) (rule : Role → List Act → Op → Prop) :
    Protocol Role Op Reply where
  State := Role × List Act
  start := fun role => (role, [])
  allowed := fun state operation => rule state.1 state.2 operation
  advance := fun state operation reply => (state.1, extend state.2 operation reply)

theorem follows_ruleProtocol {α : Type} {extend : Memory} {rule : Role → List Act → Op → Prop}
    {role : Role} {program : Prog α} {acts : List Act}
    (follows : program.Follows (remembering extend (rule role)) acts fun _ _ => True) :
    program.Follows (ruleProtocol extend rule) (role, acts) fun _ _ => True := by
  induction program generalizing acts with
  | done value => exact trivial
  | call operation next ih => exact ⟨follows.1, fun reply => ih reply (follows.2 reply)⟩

/-- What `pid` remembers of its part of the log. -/
def remembered (extend : Memory) (pid : Pid) : List PlatformEntry → List Act
  | [] => []
  | entry :: older =>
      if entry.pid = pid then extend (remembered extend pid older) entry.operation entry.reply
      else remembered extend pid older

theorem stateFrom_rule (extend : Memory) (rule : Role → List Act → Op → Prop) (role : Role) (pid : Pid)
    (log : List PlatformEntry) :
    (ruleProtocol extend rule).stateFrom role pid log = (role, remembered extend pid log) := by
  induction log with
  | nil => rfl
  | cons entry older ih =>
      rw [Protocol.stateFrom, remembered, ih]
      split <;> rfl

theorem memory_kept {extend : Memory} {rule : Role → List Act → Op → Prop} {settings : Settings}
    {pool : PlatformPool}
    (conforms : ∀ role : Role, (role.program settings).Follows (remembering extend (rule role)) []
      fun _ _ => True)
    (reachable : Reachable settings pool) {pid : Pid} {role : Role} {operation : Op}
    {next : Reply operation → Prog Unit}
    (found : pool.process pid = some { role, program := .call operation next }) :
    rule role (remembered extend pid pool.log) operation := by
  obtain ⟨outside, reached⟩ := reachable
  have conforming : ∀ role : Role, ((platform settings).program role).Follows (ruleProtocol extend rule)
      ((ruleProtocol extend rule).start role) fun _ _ => True :=
    fun role => follows_ruleProtocol (conforms role)
  have follows := Protocol.keptBy_of_reaches conforming reached pid _ found
  rw [stateFrom_rule] at follows
  exact follows.1

theorem remembered_trace (pid : Pid) (log : List PlatformEntry) :
    remembered extendTrace pid log = traceOf pid log := by
  induction log with
  | nil => rfl
  | cons entry older ih => rw [remembered, traceOf_cons, ih]

theorem rule_kept {rule : Role → List Act → Op → Prop} {settings : Settings} {pool : PlatformPool}
    (conforms : ∀ role : Role, (role.program settings).Follows (tracing (rule role)) []
      fun _ _ => True)
    (reachable : Reachable settings pool) {pid : Pid} {role : Role} {operation : Op}
    {next : Reply operation → Prog Unit}
    (found : pool.process pid = some { role, program := .call operation next }) :
    rule role (traceOf pid pool.log) operation := by
  have kept := memory_kept conforms reachable found
  rwa [remembered_trace] at kept

/-- Everything `pid` has done, newest first. -/
def historyOf (pid : Pid) (log : List PlatformEntry) : List Act := remembered remember pid log

theorem historyOf_record (pool : PlatformPool) (pid : Pid) (role : Role) (operation : Op)
    (reply : Reply operation) (rest : Prog Unit) (world : World) (queried : Pid) :
    historyOf queried (pool.record pid role operation reply rest world).log =
      if pid = queried then remember (historyOf queried pool.log) operation reply
      else historyOf queried pool.log := rfl

theorem mem_historyOf {pid : Pid} {log : List PlatformEntry} {act : Act}
    (member : act ∈ historyOf pid log) : ∃ entry ∈ log, entry.pid = pid ∧ actOf entry = act := by
  induction log with
  | nil => cases member
  | cons entry older ih =>
      simp only [historyOf, remembered] at member ih
      split at member
      · rename_i own
        obtain rfl | earlier := List.mem_cons.mp member
        · exact ⟨entry, List.mem_cons_self, own, rfl⟩
        · obtain ⟨found, among, named, same⟩ := ih earlier
          exact ⟨found, List.mem_cons_of_mem _ among, named, same⟩
      · obtain ⟨found, among, named, same⟩ := ih member
        exact ⟨found, List.mem_cons_of_mem _ among, named, same⟩

theorem actOf_mem_historyOf {log : List PlatformEntry} {entry : PlatformEntry} (logged : entry ∈ log) :
    actOf entry ∈ historyOf entry.pid log := by
  induction log with
  | nil => cases logged
  | cons newest older ih =>
      rw [historyOf, remembered]
      obtain rfl | earlier := List.mem_cons.mp logged
      · rw [if_pos rfl]
        exact List.mem_cons_self
      · split
        · exact List.mem_cons_of_mem _ (ih earlier)
        · exact ih earlier

theorem historyOf_suffix (pid : Pid) (newer older : List PlatformEntry) :
    historyOf pid older <:+ historyOf pid (newer ++ older) := by
  induction newer with
  | nil => exact List.suffix_refl _
  | cons entry newer ih =>
      rw [List.cons_append, historyOf, historyOf, remembered]
      split
      · exact ih.trans (List.suffix_cons _ _)
      · exact ih

theorem Reachable.moment_after {settings : Settings} {pool : PlatformPool}
    (reachable : Reachable settings pool) {newer older : List PlatformEntry} {entry : PlatformEntry}
    (split : pool.log = newer ++ entry :: older) :
    ∃ before next world, Reachable settings before ∧ before.log = older ∧ entry.before = before.world ∧
      before.process entry.pid = some { role := entry.role, program := .call entry.operation next } ∧
      World.operate entry.pid entry.operation before.world = some (entry.reply, world) ∧
      Reachable settings
        (before.record entry.pid entry.role entry.operation entry.reply (next entry.reply) world) ∧
      (platform settings).Reaches
        (before.record entry.pid entry.role entry.operation entry.reply (next entry.reply) world) pool := by
  obtain ⟨outside, reached⟩ := reachable
  obtain ⟨before, next, world, below, moment⟩ := reached.moment_at rfl split
  refine ⟨before, next, world, ⟨outside, moment.earlier⟩, below, moment.scene, moment.stood,
    moment.performed, ⟨outside, moment.earlier.trans ?_⟩, moment.after⟩
  have performed : (platform settings).execute entry.pid entry.operation before.world =
      some (entry.reply, world) := moment.performed
  refine @System.Reaches.step _ _ _ _ _ _ _ (.run entry.pid) _ _ .refl ?_
  simp only [System.step, moment.stood, performed]

theorem Reachable.moment_at {settings : Settings} {pool : PlatformPool}
    (reachable : Reachable settings pool) {newer older : List PlatformEntry} {entry : PlatformEntry}
    (split : pool.log = newer ++ entry :: older) :
    ∃ before, Reachable settings before ∧ (platform settings).Reaches before pool ∧
      entry.before = before.world ∧
      (∃ next, before.process entry.pid =
        some { role := entry.role, program := .call entry.operation next }) ∧
      (∃ world, World.operate entry.pid entry.operation before.world = some (entry.reply, world)) ∧
      before.log = older := by
  obtain ⟨outside, reached⟩ := reachable
  obtain ⟨before, next, world, below, moment⟩ := reached.moment_at rfl split
  exact ⟨before, ⟨outside, moment.earlier⟩, moment.later, moment.scene, ⟨next, moment.stood⟩,
    ⟨world, moment.performed⟩, below⟩

theorem Reachable.moment {settings : Settings} {pool : PlatformPool}
    (reachable : Reachable settings pool) {entry : PlatformEntry} (member : entry ∈ pool.log) :
    ∃ before, Reachable settings before ∧ (platform settings).Reaches before pool ∧
      entry.before = before.world ∧
      (∃ next, before.process entry.pid =
        some { role := entry.role, program := .call entry.operation next }) ∧
      ∃ world, World.operate entry.pid entry.operation before.world = some (entry.reply, world) := by
  obtain ⟨newer, older, split⟩ := List.append_of_mem member
  obtain ⟨before, earlier, later, same, stood, performed, _⟩ := reachable.moment_at split
  exact ⟨before, earlier, later, same, stood, performed⟩

theorem Reachable.transaction_moment {settings : Settings} {pool : PlatformPool}
    (reachable : Reachable settings pool) {pid : Pid} {entry : PlatformEntry}
    {later earlier : List PlatformEntry} (split : transaction pid pool.log = later ++ entry :: earlier) :
    ∃ before, Reachable settings before ∧ (platform settings).Reaches before pool ∧
      transaction pid before.log = earlier ∧ entry.before = before.world ∧
      (∃ next, before.process pid = some { role := entry.role, program := .call entry.operation next }) ∧
      ∃ world, World.operate pid entry.operation before.world = some (entry.reply, world) := by
  obtain ⟨newer, older, logged, below⟩ := transaction_split split
  obtain ⟨before, first, onward, stage, stood, performed, rfl⟩ := reachable.moment_at logged
  obtain ⟨_, rfl⟩ := transaction_mem (show entry ∈ transaction pid pool.log by rw [split]; simp)
  exact ⟨before, first, onward, below, stage, stood, performed⟩

theorem Reachable.trace_moment {settings : Settings} {pool : PlatformPool}
    (reachable : Reachable settings pool) {pid : Pid} {act : Act} {later earlier : List Act}
    (split : traceOf pid pool.log = later ++ act :: earlier) :
    ∃ before, Reachable settings before ∧ (platform settings).Reaches before pool ∧
      traceOf pid before.log = earlier ∧
      (∃ entry ∈ transaction pid pool.log, ∃ next, entry.before = before.world ∧
        before.process pid = some { role := entry.role, program := .call act.1 next }) ∧
      ∃ world, World.operate pid act.1 before.world = some (act.2, world) := by
  obtain ⟨above, rest, whole, rfl, tail⟩ := List.map_eq_append_iff.mp split
  obtain ⟨entry, below, rfl, rfl, rfl⟩ := List.map_eq_cons_iff.mp tail
  obtain ⟨before, first, onward, under, stage, ⟨next, stood⟩, performed⟩ :=
    reachable.transaction_moment whole
  refine ⟨before, first, onward, ?_, ⟨entry, ?_, next, stage, stood⟩, performed⟩
  · rw [traceOf, under]
  · rw [whole]
    simp

theorem Reachable.act_moment {settings : Settings} {pool : PlatformPool}
    (reachable : Reachable settings pool) {pid : Pid} {act : Act} (member : act ∈ traceOf pid pool.log) :
    ∃ before later, Reachable settings before ∧ (platform settings).Reaches before pool ∧
      traceOf pid pool.log = later ++ act :: traceOf pid before.log ∧
      (∃ entry ∈ pool.log, ∃ next, entry.pid = pid ∧
        before.process pid = some { role := entry.role, program := .call act.1 next }) ∧
      ∃ world, World.operate pid act.1 before.world = some (act.2, world) := by
  obtain ⟨later, earlier, split⟩ := List.append_of_mem member
  obtain ⟨before, first, onward, rfl, ⟨entry, among, next, _, stood⟩, performed⟩ :=
    reachable.trace_moment split
  obtain ⟨listed, own⟩ := transaction_mem among
  exact ⟨before, later, first, onward, split, ⟨entry, listed, next, own, stood⟩, performed⟩

/-- The rows a transaction has read by id have that id. -/
def Keyed (trace : List Act) : Prop :=
  ∀ id row, (⟨.query (.job id), some row⟩ : Act) ∈ trace → row.id = id

theorem Keyed.older {act : Act} {trace : List Act} (keyed : Keyed (act :: trace)) : Keyed trace :=
  fun id row member => keyed id row (List.mem_cons_of_mem _ member)

theorem traceOf_keyed {settings : Settings} {pool : PlatformPool}
    (reachable : Reachable settings pool) (pid : Pid) : Keyed (traceOf pid pool.log) := by
  intro id row member
  obtain ⟨entry, logged, same⟩ := List.mem_map.mp member
  obtain ⟨before, earlier, _, _, _, world, operated⟩ :=
    reachable.moment (transaction_mem logged).1
  obtain ⟨owner, role, operation, reply, read⟩ := entry
  cases same
  have seen : before.world.jobs.visible owner id = some row :=
    congrArg Prod.fst (Option.some.inj operated)
  rw [← Table.slot_visible] at seen
  exact (rows_keyed earlier id).visible seen

end IncidentPlatform.Platform
