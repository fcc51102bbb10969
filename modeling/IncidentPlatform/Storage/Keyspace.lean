import IncidentPlatform.Storage.SortedSet
import IncidentPlatform.Text.Wildcards
import Mathlib.Logic.Function.Basic

namespace IncidentPlatform.Storage

open Text

/-! # Typed values under string keys

A command fails on a key that holds a value of another type.
-/

/-- A stored string, apart by whether it reads as a number. -/
inductive StoredText where
  | number (value : Int)
  | text (written : String)
deriving DecidableEq

inductive StoredValue (Score : Type) where
  | sortedSet (set : SortedSet String Score)
  | set (members : List String)
  | string (text : StoredText)
  | other

structure KeyEntry (Score Span : Type) where
  value : StoredValue Score
  expiresIn : Option Span := none

inductive CommandError where
  | wrongType
  | notANumber
deriving DecidableEq

abbrev Keyspace (Score Span : Type) := String → Option (KeyEntry Score Span)

/-- A key pattern of literal characters, `*` and `?`.  Classes and escapes are
left out. -/
def keyPattern (pattern : String) : List (Wildcard Char) :=
  pattern.toList.map fun symbol =>
    if symbol = '*' then .anyText else if symbol = '?' then .anyOne else .itself symbol

namespace SortedSet

variable {Member Score : Type} [DecidableEq Member] {set : SortedSet Member Score}

def addScores (set : SortedSet Member Score) (scores : List (Member × Score)) : SortedSet Member Score :=
  scores.foldl (fun set entry => set.add entry.1 entry.2) set

theorem length_add_of_notMem {member : Member} {score : Score} (absent : member ∉ set.members) :
    (set.add member score).length = set.length + 1 := by
  have kept : (set.filter fun entry => entry.1 ≠ member) = set := by
    refine List.filter_eq_self.mpr fun entry held => ?_
    have different : entry.1 ≠ member := fun same => absent (same ▸ List.mem_map_of_mem held)
    simpa using different
  rw [add, kept, List.length_cons]

theorem length_addScores {scores : List (Member × Score)} (distinct : (scores.map Prod.fst).Nodup)
    (absent : ∀ member ∈ scores.map Prod.fst, member ∉ set.members) :
    (set.addScores scores).length = set.length + scores.length := by
  induction scores generalizing set with
  | nil => rfl
  | cons entry rest ih =>
      have unfolded : set.addScores (entry :: rest) = (set.add entry.1 entry.2).addScores rest := rfl
      rw [List.map_cons, List.nodup_cons] at distinct
      rw [unfolded, ih distinct.2, length_add_of_notMem (absent _ List.mem_cons_self), List.length_cons]
      · omega
      · intro member later held
        cases mem_members_add.mp held with
        | inl same => exact distinct.1 (same ▸ later)
        | inr before => exact absent member (List.mem_cons_of_mem _ later) before

end SortedSet

namespace Keyspace

variable {Score Span : Type}

section Commands

variable (keys : Keyspace Score Span)

def zcard (key : String) : Except CommandError Nat :=
  match keys key with
  | none => .ok 0
  | some ⟨.sortedSet set, _⟩ => .ok set.length
  | some _ => .error .wrongType

def scard (key : String) : Except CommandError Nat :=
  match keys key with
  | none => .ok 0
  | some ⟨.set members, _⟩ => .ok members.length
  | some _ => .error .wrongType

def get (key : String) : Except CommandError (Option StoredText) :=
  match keys key with
  | none => .ok none
  | some ⟨.string text, _⟩ => .ok (some text)
  | some _ => .error .wrongType

/-- Adds to the sorted set of the key, which keeps its TTL. -/
def zadd (key : String) (scores : List (String × Score)) : Except CommandError (Keyspace Score Span) :=
  match keys key with
  | none => .ok (Function.update keys key (some { value := .sortedSet (SortedSet.addScores [] scores) }))
  | some ⟨.sortedSet set, expiresIn⟩ =>
      .ok (Function.update keys key
        (some { value := .sortedSet (set.addScores scores), expiresIn := expiresIn }))
  | some _ => .error .wrongType

def expire (key : String) (span : Span) : Keyspace Score Span :=
  Function.update keys key ((keys key).map fun entry => { entry with expiresIn := some span })

/-- `SET key value EX span`, whatever the key holds. -/
def setFor (key : String) (text : StoredText) (span : Span) : Keyspace Score Span :=
  Function.update keys key (some { value := .string text, expiresIn := some span })

/-- Deletes what a whole scan with the pattern returns: a scan returns every
key that is there from its start to its end. -/
def scanDelete (pattern : String) : Keyspace Score Span := fun key =>
  if matchesAll (keyPattern pattern) key.toList then none else keys key

end Commands

variable {keys : Keyspace Score Span} {key stem : String}

/-- No character of the stem is a wildcard. -/
def Literal (stem : String) : Prop := ∀ symbol ∈ stem.toList, symbol ≠ '*' ∧ symbol ≠ '?'

instance : Decidable (Literal stem) :=
  List.decidableBAll (fun symbol => symbol ≠ '*' ∧ symbol ≠ '?') stem.toList

theorem Literal.append {other : String} (first : Literal stem) (second : Literal other) :
    Literal (stem ++ other) := by
  intro symbol held
  rw [String.toList_append, List.mem_append] at held
  cases held with
  | inl front => exact first symbol front
  | inr back => exact second symbol back

theorem keyPattern_stem (literal : Literal stem) :
    keyPattern (stem ++ "*") = stem.toList.map Wildcard.itself ++ [.anyText] := by
  have front : keyPattern stem = stem.toList.map Wildcard.itself := by
    refine List.map_congr_left fun symbol held => ?_
    simp [literal symbol held]
  have appended : keyPattern (stem ++ "*") = keyPattern stem ++ keyPattern "*" := by
    simp [keyPattern]
  rw [appended, front]
  simp [keyPattern]

/-- What a scan over a stem deletes is what starts with it. -/
theorem scanDelete_stem (literal : Literal stem) :
    keys.scanDelete (stem ++ "*") key = if stem.toList <+: key.toList then none else keys key := by
  unfold scanDelete
  rw [keyPattern_stem literal]
  exact if_congr matchesAll_stem_iff rfl rfl

end Keyspace

end IncidentPlatform.Storage
