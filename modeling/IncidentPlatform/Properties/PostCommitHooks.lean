import IncidentPlatform.Utils.PostCommit

namespace IncidentPlatform.Properties

open Utils

/-! # Hooks and the work they were registered in

A rollback at any depth empties the whole queue, so what a drain finds are the
hooks registered since the last rollback.
-/

variable {Hook : Type}

/-- No savepoint is rolled back after a hook whose work is kept. -/
def rollsBackBeforeHooks : Work Hook → Bool
  | .done => true
  | .register _ rest => !rest.rollsBack
  | .savepoint body released rest => rollsBackBeforeHooks rest &&
      (!released || rollsBackBeforeHooks body && (!rest.rollsBack || body.kept.isEmpty))

def sinceRollback : Work Hook → List Hook
  | .done => []
  | .register hook rest => (if rest.rollsBack then [] else [hook]) ++ sinceRollback rest
  | .savepoint body released rest =>
      (if released && !rest.rollsBack then sinceRollback body else []) ++ sinceRollback rest

def Guarded (info : SessionInfo Hook) : Prop := info.queue ≠ [] → info.guarded = true

theorem queue_softRollback {info : SessionInfo Hook} (guarded : Guarded info) :
    info.softRollback.queue = [] := by
  unfold SessionInfo.softRollback
  split
  · rfl
  · rename_i unguarded
    by_contra queued
    exact unguarded (guarded queued)

theorem Guarded.of_empty {info : SessionInfo Hook} (empty : info.queue = []) : Guarded info :=
  fun queued => absurd empty queued

theorem Guarded.perform {info : SessionInfo Hook} (work : Work Hook) (guarded : Guarded info) :
    Guarded (work.perform info) := by
  induction work generalizing info with
  | done => exact guarded
  | register hook rest ih => exact ih fun _ => rfl
  | savepoint body released rest bodyIH restIH =>
      have inside := bodyIH guarded
      apply restIH
      split
      · exact inside
      · exact .of_empty (queue_softRollback inside)

theorem queue_perform {info : SessionInfo Hook} (work : Work Hook) (guarded : Guarded info) :
    (work.perform info).queue = (if work.rollsBack then [] else info.queue) ++ sinceRollback work := by
  induction work generalizing info with
  | done => simp [Work.perform, Work.rollsBack, sinceRollback]
  | register hook rest ih =>
      have added : (info.registerPostCommit hook).queue = info.queue ++ [hook] := rfl
      rw [Work.perform, ih fun _ => rfl, added, Work.rollsBack, sinceRollback]
      split <;> simp
  | savepoint body released rest bodyIH restIH =>
      have inside := guarded.perform body
      rw [Work.perform, Work.rollsBack, sinceRollback]
      cases released with
      | true =>
          rw [if_pos rfl, restIH inside, bodyIH guarded]
          cases rest.rollsBack <;> cases body.rollsBack <;> simp
      | false =>
          have cleared := queue_softRollback inside
          rw [if_neg Bool.false_ne_true, restIH (.of_empty cleared), cleared]
          simp

theorem sinceRollback_of_kept {work : Work Hook} (kept : work.rollsBack = false) :
    sinceRollback work = work.kept := by
  induction work with
  | done => rfl
  | register hook rest ih =>
      rw [Work.rollsBack] at kept
      rw [sinceRollback, Work.kept, ih kept, kept]
      rfl
  | savepoint body released rest bodyIH restIH =>
      simp only [Work.rollsBack, Bool.or_eq_false_iff, Bool.not_eq_false'] at kept
      obtain ⟨⟨rfl, body⟩, rest⟩ := kept
      simp [sinceRollback, Work.kept, bodyIH body, restIH rest, rest]

theorem sinceRollback_suffix (work : Work Hook) : sinceRollback work <:+ work.kept := by
  induction work with
  | done => exact List.suffix_refl _
  | register hook rest ih =>
      rw [sinceRollback, Work.kept]
      split
      · exact ih.trans (List.suffix_cons _ _)
      · rename_i kept
        rw [sinceRollback_of_kept (by simpa using kept)]
        exact List.suffix_refl _
  | savepoint body released rest bodyIH restIH =>
      rw [sinceRollback, Work.kept]
      cases released with
      | false => simpa using restIH
      | true =>
          cases rolled : rest.rollsBack with
          | true => simpa using restIH.trans (List.suffix_append _ _)
          | false =>
              rw [sinceRollback_of_kept rolled]
              obtain ⟨dropped, split⟩ := bodyIH
              exact ⟨dropped, by simp [← split]⟩

theorem sinceRollback_eq_iff (work : Work Hook) :
    sinceRollback work = work.kept ↔ rollsBackBeforeHooks work = true := by
  induction work with
  | done => simp [sinceRollback, Work.kept, rollsBackBeforeHooks]
  | register hook rest ih =>
      rw [rollsBackBeforeHooks, sinceRollback, Work.kept]
      cases rolled : rest.rollsBack with
      | false =>
          rw [sinceRollback_of_kept rolled]
          simp
      | true =>
          have shorter := (sinceRollback_suffix rest).length_le
          simp only [if_true, List.nil_append, Bool.not_true, Bool.false_eq_true, iff_false]
          intro same
          rw [same, List.length_cons] at shorter
          omega
  | savepoint body released rest bodyIH restIH =>
      rw [rollsBackBeforeHooks, sinceRollback, Work.kept]
      cases released with
      | false => simpa using restIH
      | true =>
          cases rolled : rest.rollsBack with
          | false =>
              have whole := restIH.mp (sinceRollback_of_kept rolled)
              simp [sinceRollback_of_kept rolled, whole, bodyIH]
          | true =>
              have shorter := (sinceRollback_suffix rest).length_le
              simp only [Bool.not_true, Bool.and_false, Bool.false_eq_true, if_false, List.nil_append,
                if_true, Bool.false_or, Bool.and_eq_true, List.isEmpty_iff, ← restIH, ← bodyIH]
              constructor
              · intro same
                have none : body.kept = [] := by
                  rw [same, List.length_append] at shorter
                  exact List.eq_nil_of_length_eq_zero (by omega)
                refine ⟨by simpa [none] using same, ?_, none⟩
                rw [none]
                exact List.suffix_nil.mp (none ▸ sinceRollback_suffix body)
              · rintro ⟨same, _, none⟩
                rw [same, none, List.nil_append]

theorem run_queue {info : SessionInfo Hook} (transaction : Transaction Hook) (empty : info.queue = []) :
    (transaction.run info).2.queue = [] := by
  unfold Transaction.run
  dsimp only
  split
  · rfl
  · exact queue_softRollback ((Guarded.of_empty empty).perform transaction.work)

theorem run_hooks {info : SessionInfo Hook} (transaction : Transaction Hook) (empty : info.queue = []) :
    (transaction.run info).1 = transaction.due ↔
      (transaction.commits = true → rollsBackBeforeHooks transaction.work = true) := by
  unfold Transaction.run Transaction.due
  dsimp only
  cases transaction.commits with
  | false => simp
  | true =>
      simp only [if_true, SessionInfo.runPostCommit, forall_const]
      rw [queue_perform transaction.work (.of_empty empty), empty, ite_self, List.nil_append]
      exact sinceRollback_eq_iff transaction.work

/-- On one session, every transaction runs the hooks of what it committed, once
each and in their order, exactly if in every transaction that commits the
savepoints that are rolled back come before the hooks that are kept. -/
theorem hooks_match_commits_iff (transactions : List (Transaction Hook)) :
    runSession {} transactions = transactions.map Transaction.due ↔
      ∀ transaction ∈ transactions, transaction.commits = true →
        rollsBackBeforeHooks transaction.work = true := by
  have emptied : ∀ info : SessionInfo Hook, info.queue = [] →
      (runSession info transactions = transactions.map Transaction.due ↔
        ∀ transaction ∈ transactions, transaction.commits = true →
          rollsBackBeforeHooks transaction.work = true) := by
    induction transactions with
    | nil => simp [runSession]
    | cons transaction rest ih =>
        intro info empty
        rw [runSession, List.map_cons, List.cons.injEq, run_hooks transaction empty,
          ih _ (run_queue transaction empty), List.forall_mem_cons]
  exact emptied {} rfl

/-- The batch of `replay_dlq_by_ids` for two ids: the first is replayed, the
second is refused and its savepoint rolled back. -/
def secondRefused : Work String :=
  .savepoint (.register "invalidate the first" .done) true (.savepoint .done false .done)

theorem refused_sibling_drops_hook :
    ¬ ∀ (Hook : Type) (transactions : List (Transaction Hook)),
      runSession {} transactions = transactions.map Transaction.due := by
  intro allMatch
  have lost := allMatch String [⟨secondRefused, true⟩]
  exact absurd lost (by decide)

end IncidentPlatform.Properties
