import IncidentPlatform.Frontend.Ledger
import IncidentPlatform.Order.Dividers
import Mathlib.Data.Int.Order.Basic
import Mathlib.Data.Prod.Lex
import Mathlib.Order.OrderDual

namespace IncidentPlatform.Properties

open Frontend IncidentPlatform.Order

/-! # The ledger loses and doubles nothing

What the toggle hides is what the exclusions count, every source has its entry,
and the page only regroups the entries.
-/

/-- The rows that `ledgerExclusions` counts. -/
def excluded (runPrincipalId : Option String) (row : AuditRow) : Bool :=
  !isResetRow row.toAuditLog && (isProbeRow row.toAuditLog || isForeignToolRow row runPrincipalId)

section Rows

variable {row : AuditRow} {audit : List AuditRow} {runPrincipalId : Option String} {options : LedgerOptions}

theorem action_of_foreign (foreign : isForeignToolRow row runPrincipalId = true) : row.action = agentToolAction := by
  unfold isForeignToolRow at foreign
  split at foreign
  · cases foreign
  · rename_i tool
    exact not_not.mp tool

theorem isFaultRow_eq_false (other : row.action ≠ chaosInvokeAction) : isFaultRow row.toAuditLog = false := by
  rw [isFaultRow, if_pos other]

theorem isProbeRow_eq_false (lab : startsWith row.action "lab." = false) (chaos : isLabRow row.toAuditLog = false) :
    isProbeRow row.toAuditLog = false := by
  rw [isProbeRow, isLabProbeRow, isChaosProbeRow, lab, chaos]
  rfl

theorem isProbeRow_of_fault (fault : isFaultRow row.toAuditLog = true) : isProbeRow row.toAuditLog = false := by
  have invoked : row.action = chaosInvokeAction := by
    by_contra other
    rw [isFaultRow_eq_false other] at fault
    cases fault
  rw [isProbeRow, isLabProbeRow, isChaosProbeRow, fault, invoked]
  simp [startsWith, chaosInvokeAction]

theorem isProbeRow_of_alert (alert : isAlertRow row.toAuditLog = true) : isProbeRow row.toAuditLog = false := by
  have raised : row.action = alertRaisedAction := of_decide_eq_true alert
  refine isProbeRow_eq_false ?_ ?_
  · rw [raised]
    decide
  · rw [isLabRow, raised]
    decide

theorem auditLedgerKind_of_probe (notReset : isResetRow row.toAuditLog = false)
    (probe : isProbeRow row.toAuditLog = true) :
    auditLedgerKind row options = if options.showHiddenReads then some .labProbe else none := by
  have notFault : isFaultRow row.toAuditLog = false := by
    rw [← Bool.not_eq_true]
    exact fun fault => Bool.false_ne_true ((isProbeRow_of_fault fault).symm.trans probe)
  have notAlert : isAlertRow row.toAuditLog = false := by
    rw [← Bool.not_eq_true]
    exact fun alert => Bool.false_ne_true ((isProbeRow_of_alert alert).symm.trans probe)
  simp only [auditLedgerKind, notReset, notFault, notAlert, probe, Bool.false_eq_true, if_false, if_true]

theorem auditLedgerKind_of_foreign (foreign : isForeignToolRow row options.runPrincipalId = true) :
    auditLedgerKind row options = if options.showHiddenReads then some .otherPrincipal else none := by
  have tool := action_of_foreign foreign
  have notReset : isResetRow row.toAuditLog = false := by
    rw [isResetRow, tool]
    decide
  have notFault : isFaultRow row.toAuditLog = false := isFaultRow_eq_false (tool ▸ by decide)
  have notAlert : isAlertRow row.toAuditLog = false := by
    rw [isAlertRow, tool]
    decide
  have notProbe : isProbeRow row.toAuditLog = false := by
    refine isProbeRow_eq_false ?_ ?_
    · rw [tool]
      decide
    · rw [isLabRow, tool]
      decide
  have notEvent : startsWith row.action jobEventPrefix = false := by
    rw [tool]
    decide
  have notReport : row.action ≠ agentRunReportAction := tool ▸ by decide
  simp only [auditLedgerKind, notReset, notFault, notAlert, notProbe, notEvent, if_neg notReport, if_pos tool,
    foreign, Bool.false_eq_true, if_false, if_true]

theorem auditLedgerKind_of_kept (kept : excluded options.runPrincipalId row = false) (shown : Bool) :
    auditLedgerKind row { options with showHiddenReads := shown } = auditLedgerKind row options := by
  by_cases reset : isResetRow row.toAuditLog = true
  · rw [auditLedgerKind, auditLedgerKind, if_pos reset, if_pos reset]
  · have neither : isProbeRow row.toAuditLog = false ∧ isForeignToolRow row options.runPrincipalId = false := by
      simpa [excluded, reset] using kept
    simp only [auditLedgerKind, neither.1, neither.2, Bool.false_eq_true, if_false]

theorem isSome_auditLedgerKind_of_excluded (counted : excluded options.runPrincipalId row = true) (shown : Bool) :
    (auditLedgerKind row { options with showHiddenReads := shown }).isSome = shown := by
  rw [excluded, Bool.and_eq_true, Bool.or_eq_true, Bool.not_eq_true'] at counted
  obtain ⟨notReset, probe | foreign⟩ := counted
  · rw [auditLedgerKind_of_probe notReset probe]
    cases shown <;> rfl
  · rw [@auditLedgerKind_of_foreign row { options with showHiddenReads := shown } foreign]
    cases shown <;> rfl

theorem countExclusion_sum (counts : Nat × Nat) (row : AuditRow) :
    (countExclusion runPrincipalId counts row).1 + (countExclusion runPrincipalId counts row).2 =
      counts.1 + counts.2 + if excluded runPrincipalId row then 1 else 0 := by
  unfold countExclusion excluded
  cases isResetRow row.toAuditLog <;> cases isProbeRow row.toAuditLog <;>
    cases isForeignToolRow row runPrincipalId <;> simp <;> omega

theorem total_eq_countP (audit : List AuditRow) (runPrincipalId : Option String) :
    (ledgerExclusions audit runPrincipalId).total = audit.countP (excluded runPrincipalId) := by
  have counted : ∀ counts : Nat × Nat,
      (audit.foldl (countExclusion runPrincipalId) counts).1 + (audit.foldl (countExclusion runPrincipalId) counts).2 =
        counts.1 + counts.2 + audit.countP (excluded runPrincipalId) := by
    induction audit with
    | nil => intro counts; rfl
    | cons row rest ih =>
        intro counts
        rw [List.foldl_cons, ih, countExclusion_sum, List.countP_cons]
        omega
  simpa [ledgerExclusions] using counted (0, 0)

theorem countP_shown (audit : List AuditRow) (options : LedgerOptions) :
    audit.countP (fun row => (auditLedgerKind row { options with showHiddenReads := true }).isSome) =
      audit.countP (fun row => (auditLedgerKind row { options with showHiddenReads := false }).isSome) +
        audit.countP (excluded options.runPrincipalId) := by
  induction audit with
  | nil => rfl
  | cons row rest ih =>
      rw [List.countP_cons, List.countP_cons, List.countP_cons, ih]
      cases counted : excluded options.runPrincipalId row with
      | true =>
          rw [isSome_auditLedgerKind_of_excluded counted true, isSome_auditLedgerKind_of_excluded counted false]
          simp
          omega
      | false =>
          rw [auditLedgerKind_of_kept counted true, auditLedgerKind_of_kept counted false]
          simp
          omega

end Rows

section Entries

variable {dates : DateTexts} {input : LedgerInput}

theorem buildLedger_perm : (buildLedger dates input).Perm (ledgerEntries dates input) := by
  have sorted : (newestEntriesFirst (ledgerEntries dates input)).Perm (ledgerEntries dates input) :=
    List.perm_insertionSort _ _
  rw [buildLedger]
  split
  · exact (List.reverse_perm _).trans sorted
  · exact sorted

theorem filterMap_rowEntry_row (options : LedgerOptions) (audit : List AuditRow) :
    (audit.filterMap (rowEntry options)).filterMap LedgerEntry.row =
      audit.filter fun row => (auditLedgerKind row options).isSome := by
  induction audit with
  | nil => rfl
  | cons row rest ih =>
      cases kind : auditLedgerKind row options with
      | none => simpa [rowEntry, kind] using ih
      | some kind' => simpa [rowEntry, kind] using ih

theorem filterMap_rowEntry_other {α : Type} {field : LedgerEntry → Option α} (options : LedgerOptions)
    (absent : ∀ row entry, rowEntry options row = some entry → field entry = none) (audit : List AuditRow) :
    (audit.filterMap (rowEntry options)).filterMap field = [] := by
  rw [List.filterMap_eq_nil_iff]
  intro entry member
  obtain ⟨row, _, made⟩ := List.mem_filterMap.mp member
  exact absent row entry made

theorem rowEntry_fields {options : LedgerOptions} {row : AuditRow} {entry : LedgerEntry}
    (made : rowEntry options row = some entry) : entry.step = none ∧ entry.phase = none := by
  obtain ⟨kind, _, rfl⟩ := Option.map_eq_some_iff.mp made
  exact ⟨rfl, rfl⟩

theorem rows_of_buildLedger : ((buildLedger dates input).filterMap LedgerEntry.row).Perm
    (input.audit.filter fun row => (auditLedgerKind row input.options).isSome) := by
  refine (buildLedger_perm.filterMap _).trans (List.Perm.of_eq ?_)
  rw [ledgerEntries, List.filterMap_append, List.filterMap_append, filterMap_rowEntry_row, List.filterMap_map,
    List.filterMap_map]
  simp [stepEntry, phaseEntry]

theorem steps_of_buildLedger : ((buildLedger dates input).filterMap LedgerEntry.step).Perm input.steps := by
  refine (buildLedger_perm.filterMap _).trans (List.Perm.of_eq ?_)
  rw [ledgerEntries, List.filterMap_append, List.filterMap_append,
    filterMap_rowEntry_other _ fun row entry made => (rowEntry_fields made).1, List.filterMap_map, List.filterMap_map]
  simp [stepEntry, phaseEntry]

theorem phases_of_buildLedger :
    ((buildLedger dates input).filterMap LedgerEntry.phase).Perm (input.phaseHistory.getD []) := by
  refine (buildLedger_perm.filterMap _).trans (List.Perm.of_eq ?_)
  rw [ledgerEntries, List.filterMap_append, List.filterMap_append,
    filterMap_rowEntry_other _ fun row entry made => (rowEntry_fields made).2, List.filterMap_map, List.filterMap_map]
  simp [stepEntry, phaseEntry]

theorem length_buildLedger : (buildLedger dates input).length = input.steps.length +
    input.audit.countP (fun row => (auditLedgerKind row input.options).isSome) +
    (input.phaseHistory.getD []).length := by
  rw [buildLedger_perm.length_eq, ledgerEntries]
  simp [rowEntry, List.length_filterMap_eq_countP, Nat.add_assoc]

/-- The later text first, at one instant a divider last, and then the later step first. -/
def entryKey (entry : LedgerEntry) : JsStringᵒᵈ ×ₗ Bool ×ₗ ℤᵒᵈ :=
  toLex (OrderDual.toDual entry.stamp,
    toLex (isPhaseEntry entry, OrderDual.toDual (entry.step.elim 0 AgentRunStepRecord.seq)))

theorem compareEntries_le_iff {first second : LedgerEntry} :
    compareEntries first second ≤ 0 ↔ entryKey first ≤ entryKey second := by
  rw [entryKey, entryKey, Prod.Lex.toLex_le_toLex, Prod.Lex.toLex_le_toLex]
  simp only [OrderDual.toDual_lt_toDual, OrderDual.toDual_le_toDual, OrderDual.toDual_inj]
  unfold compareEntries isPhaseEntry
  by_cases same : first.stamp = second.stamp
  · rw [if_neg (not_not.mpr same), same]
    by_cases one : first.kind = .phase <;> by_cases other : second.kind = .phase <;> simp [one, other]
  · rw [if_pos same]
    by_cases older : first.stamp < second.stamp
    · rw [if_pos older]
      simp [same, not_lt_of_gt older]
    · rw [if_neg older]
      simp [same, lt_of_le_of_ne (not_lt.mp older) (Ne.symm same)]

instance : Std.Total fun first second => compareEntries first second ≤ 0 :=
  ⟨fun first second => by simpa only [compareEntries_le_iff] using le_total (entryKey first) (entryKey second)⟩

instance : IsTrans LedgerEntry fun first second => compareEntries first second ≤ 0 :=
  ⟨fun first second third below above => by
    rw [compareEntries_le_iff] at *
    exact le_trans below above⟩

/-- A ledger that is not turned around is sorted by its texts, and a divider
counts as older than the entries of its instant. -/
theorem newestFirst_buildLedger (notReversed : input.oldestFirst ≠ some true) :
    NewestFirst isPhaseEntry LedgerEntry.stamp (buildLedger dates input) := by
  rw [buildLedger, if_neg notReversed]
  refine (List.pairwise_insertionSort (fun first second => compareEntries first second ≤ 0) _).imp ?_
  intro newer older ordered
  rw [compareEntries_le_iff, entryKey, entryKey, Prod.Lex.toLex_le_toLex, Prod.Lex.toLex_le_toLex] at ordered
  simp only [OrderDual.toDual_lt_toDual, OrderDual.toDual_inj] at ordered
  obtain below | ⟨same, bySort⟩ := ordered
  · exact .inl below
  · refine .inr ⟨same.symm, fun phase => ?_⟩
    rw [phase] at bySort
    obtain lower | ⟨equal, _⟩ := bySort
    · exact absurd lower (not_lt_of_ge (Bool.le_true _))
    · exact equal.symm

end Entries

section Display

variable {ledger : List LedgerEntry}

def sectionsOf (divided : Divided LedgerEntry) : List LedgerSection :=
  { head := none, rows := divided.bottom.reverse } ::
    divided.blocks.reverse.map fun block => { head := some block.divider, rows := block.rows.reverse }

theorem addEntry_sectionsOf (divided : Divided LedgerEntry) (entry : LedgerEntry) :
    addEntry (sectionsOf divided) entry = sectionsOf (divided.add isPhaseEntry entry) := by
  obtain ⟨blocks, bottom⟩ := divided
  rw [addEntry, Divided.add]
  split
  · simp [sectionsOf]
  · cases blocks with
    | nil => simp [sectionsOf, List.modifyLast, List.modifyLast.go]
    | cons block later =>
        simp only [sectionsOf, List.reverse_cons, List.map_append, List.map_cons, List.map_nil]
        rw [← List.cons_append, List.modifyLast_concat]
        rfl

theorem foldl_addEntry (ledger : List LedgerEntry) :
    ledger.reverse.foldl addEntry [{ head := none, rows := [] }] = sectionsOf (divide isPhaseEntry ledger) := by
  induction ledger with
  | nil => rfl
  | cons entry rest ih =>
      rw [List.reverse_cons, List.foldl_append, ih]
      exact addEntry_sectionsOf _ entry

theorem ledgerDisplayOrder_eq (ledger : List LedgerEntry) :
    ledgerDisplayOrder ledger = (divide isPhaseEntry ledger).headed := by
  rw [ledgerDisplayOrder]
  split
  · rw [foldl_addEntry, sectionsOf, Divided.headed]
    simp [List.flatMap_map]
  · rename_i none
    refine (headed_divide_of_plain fun entry member => ?_).symm
    rw [← Bool.not_eq_true]
    exact fun phase => none (List.any_eq_true.mpr ⟨entry, member, phase⟩)

end Display

/-- `ledgerExclusions` counts the entries that the toggle adds; every step and
every phase has one entry, every audit row at most one; and `ledgerDisplayOrder`
rearranges a newest-first ledger so that each block of rows stands under the
divider that follows it, which is the latest one that is not after the row. -/
theorem ledger_loses_and_doubles_nothing (dates : DateTexts) (input : LedgerInput) :
    (∀ hidden ∈ [none, some false],
      (buildLedger dates { input with showHiddenReads := some true }).length =
        (buildLedger dates { input with showHiddenReads := hidden }).length +
          (ledgerExclusions input.audit input.runPrincipalId).total) ∧
    (((buildLedger dates input).filterMap LedgerEntry.row).Perm
        (input.audit.filter fun row => (auditLedgerKind row input.options).isSome) ∧
      ((buildLedger dates input).filterMap LedgerEntry.step).Perm input.steps ∧
      ((buildLedger dates input).filterMap LedgerEntry.phase).Perm (input.phaseHistory.getD []) ∧
      (buildLedger dates input).length = input.steps.length +
        input.audit.countP (fun row => (auditLedgerKind row input.options).isSome) +
        (input.phaseHistory.getD []).length) ∧
    (input.oldestFirst ≠ some true →
      NewestFirst isPhaseEntry LedgerEntry.stamp (buildLedger dates input)) ∧
    ∀ ledger : List LedgerEntry, (ledgerDisplayOrder ledger).Perm ledger ∧
      ∃ divided : Divided LedgerEntry, divided.Proper isPhaseEntry ∧ divided.newestFirst = ledger ∧
        divided.headed = ledgerDisplayOrder ledger ∧
        ∀ (Time : Type) [LinearOrder Time] (time : LedgerEntry → Time), NewestFirst isPhaseEntry time ledger →
          (∀ block ∈ divided.blocks, ∀ row ∈ block.rows, time block.divider ≤ time row ∧
            ∀ phase ∈ ledger, isPhaseEntry phase = true → time phase ≤ time row →
              time phase ≤ time block.divider) ∧
          ∀ row ∈ divided.bottom, ∀ phase ∈ ledger, isPhaseEntry phase = true → time row < time phase := by
  refine ⟨fun hidden among => ?_, ⟨rows_of_buildLedger, steps_of_buildLedger, phases_of_buildLedger,
    length_buildLedger⟩, newestFirst_buildLedger, fun ledger => ?_⟩
  · have without : decide (hidden = some true) = false := by
      rw [List.mem_cons, List.mem_singleton] at among
      obtain rfl | rfl := among <;> rfl
    have counted := countP_shown input.audit input.options
    rw [length_buildLedger, length_buildLedger, total_eq_countP]
    have shown : LedgerInput.options { input with showHiddenReads := some true } =
        { input.options with showHiddenReads := true } := rfl
    have left : LedgerInput.options { input with showHiddenReads := hidden } =
        { input.options with showHiddenReads := false } := by
      rw [LedgerInput.options, without]
      rfl
    have same : input.audit.countP (excluded input.runPrincipalId) =
        input.audit.countP (excluded input.options.runPrincipalId) := rfl
    rw [shown, left, same]
    dsimp only
    omega
  · have whole := @newestFirst_divide _ isPhaseEntry ledger
    have proper := @proper_divide _ isPhaseEntry ledger
    rw [ledgerDisplayOrder_eq]
    refine ⟨(Divided.headed_perm _).trans (List.Perm.of_eq whole), divide isPhaseEntry ledger, proper, whole, rfl, ?_⟩
    intro Time _ time sorted
    rw [← whole] at sorted
    refine ⟨fun block member row among => ⟨Divided.divider_le sorted member among, ?_⟩, ?_⟩
    · intro phase held isDivider earlier
      exact Divided.latest proper sorted member among (whole.symm ▸ held) isDivider earlier
    · intro row among phase held isDivider
      exact Divided.bottom_lt proper sorted among (whole.symm ▸ held) isDivider

end IncidentPlatform.Properties
