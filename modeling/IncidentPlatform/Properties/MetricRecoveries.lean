import IncidentPlatform.Frontend.MetricRecovery
import IncidentPlatform.Search.Pages
import IncidentPlatform.Search.Streak

namespace IncidentPlatform.Properties

open Frontend Search

/-! # Recovery, read off the samples

The loop looks for the first streak of samples inside the bar among the samples
that count, in time order.
-/

section Reading

variable {dates : DateParser} {samples others : List MetricSample} {threshold : ℚ}
  {faultAt actionAt : Option JsString} {required : Nat} {breach : MetricSample} {run : List MetricSample}

def inside (threshold : ℚ) (sample : MetricSample) : Bool := sample.v ≤ threshold

def relevant (dates : DateParser) (samples : List MetricSample) (faultAt : Option JsString) : List MetricSample :=
  oldestFirst (samples.filter (sinceFault dates faultAt))

def candidates (dates : DateParser) (samples : List MetricSample) (faultAt actionAt : Option JsString)
    (breach : MetricSample) : List MetricSample :=
  (relevant dates samples faultAt).filter fun sample => recoveryFrom dates breach actionAt ≤ sample.t

/-- The first sample outside of the bar since the fault. -/
structure FirstBreach (dates : DateParser) (samples : List MetricSample) (threshold : ℚ)
    (faultAt : Option JsString) (breach : MetricSample) : Prop where
  member : breach ∈ samples
  since : sinceFault dates faultAt breach = true
  outside : threshold < breach.v
  first : ∀ sample ∈ samples, sinceFault dates faultAt sample = true → threshold < sample.v → breach.t ≤ sample.t

/-- Consecutive samples inside of the bar, not before the breach or the action. -/
structure InsideRun (dates : DateParser) (samples : List MetricSample) (threshold : ℚ)
    (actionAt : Option JsString) (breach : MetricSample) (required : Nat) (run : List MetricSample) : Prop where
  length : run.length = required
  ordered : run.Pairwise fun first second => first.t < second.t
  member : ∀ sample ∈ run, sample ∈ samples
  inside : ∀ sample ∈ run, sample.v ≤ threshold
  sinceBreach : ∀ sample ∈ run, breach.t ≤ sample.t
  sinceAction : ∀ sample ∈ run, ∀ actionT ∈ actionAt.bind dates, actionT ≤ sample.t
  consecutive : ∀ sample ∈ samples, ∀ earlier ∈ run, ∀ later ∈ run,
    earlier.t ≤ sample.t → sample.t ≤ later.t → sample ∈ run

theorem mem_oldestFirst {sample : MetricSample} : sample ∈ oldestFirst samples ↔ sample ∈ samples :=
  List.mem_insertionSort _

theorem oldestFirst_sorted (distinct : (samples.map MetricSample.t).Nodup) :
    (oldestFirst samples).Pairwise fun first second => first.t < second.t := by
  have perm : (oldestFirst samples).Perm samples := List.perm_insertionSort ..
  have apart : (oldestFirst samples).Pairwise fun first second => first.t ≠ second.t :=
    List.pairwise_map.mp ((perm.map MetricSample.t).nodup_iff.mpr distinct)
  have : Std.Total fun first second : MetricSample => first.t ≤ second.t := ⟨fun _ _ => le_total _ _⟩
  have : IsTrans MetricSample fun first second => first.t ≤ second.t := ⟨fun _ _ _ => le_trans⟩
  have ordered : (oldestFirst samples).Pairwise fun first second => first.t ≤ second.t :=
    List.pairwise_insertionSort ..
  exact ordered.imp₂ (fun _ _ => lt_of_le_of_ne) apart

theorem distinct_filter {passes : MetricSample → Bool} (distinct : (samples.map MetricSample.t).Nodup) :
    ((samples.filter passes).map MetricSample.t).Nodup :=
  distinct.sublist (List.filter_sublist.map _)

theorem mem_relevant {sample : MetricSample} : sample ∈ relevant dates samples faultAt ↔
    sample ∈ samples ∧ sinceFault dates faultAt sample = true := by
  rw [relevant, mem_oldestFirst, List.mem_filter]

theorem relevant_sorted (distinct : (samples.map MetricSample.t).Nodup) :
    (relevant dates samples faultAt).Pairwise fun first second => first.t < second.t :=
  oldestFirst_sorted (distinct_filter distinct)

theorem candidates_sorted (distinct : (samples.map MetricSample.t).Nodup) :
    (candidates dates samples faultAt actionAt breach).Pairwise fun first second => first.t < second.t :=
  (relevant_sorted distinct).filter _

theorem recoveryFrom_le_iff {sample : MetricSample} : recoveryFrom dates breach actionAt ≤ sample.t ↔
    breach.t ≤ sample.t ∧ ∀ actionT ∈ actionAt.bind dates, actionT ≤ sample.t := by
  unfold recoveryFrom
  cases actionAt.bind dates with
  | none => simp
  | some actionT => simp

theorem sinceFault_later {sample : MetricSample} (since : sinceFault dates faultAt breach = true)
    (later : breach.t ≤ sample.t) : sinceFault dates faultAt sample = true := by
  cases faultAt with
  | none => rfl
  | some stamp =>
      simp only [sinceFault, Option.all_some] at since ⊢
      cases parsed : dates stamp with
      | none => simp [parsed] at since
      | some faultT =>
          simp only [parsed, Option.any_some, decide_eq_true_eq] at since ⊢
          exact le_trans since later

theorem mem_candidates (first : FirstBreach dates samples threshold faultAt breach) {sample : MetricSample} :
    sample ∈ candidates dates samples faultAt actionAt breach ↔
      sample ∈ samples ∧ breach.t ≤ sample.t ∧ ∀ actionT ∈ actionAt.bind dates, actionT ≤ sample.t := by
  rw [candidates, List.mem_filter, mem_relevant, decide_eq_true_eq, recoveryFrom_le_iff]
  constructor
  · rintro ⟨⟨member, _⟩, counts⟩
    exact ⟨member, counts⟩
  · rintro ⟨member, later, action⟩
    exact ⟨⟨member, sinceFault_later first.since later⟩, later, action⟩

theorem find_breach_iff (distinct : (samples.map MetricSample.t).Nodup) :
    (relevant dates samples faultAt).find? (fun sample => threshold < sample.v) = some breach ↔
      FirstBreach dates samples threshold faultAt breach := by
  have sorted := @relevant_sorted dates samples faultAt distinct
  rw [List.find?_eq_some_iff_append]
  constructor
  · rintro ⟨outside, earlier, later, split, before⟩
    have found : breach ∈ relevant dates samples faultAt := by simp [split]
    obtain ⟨member, since⟩ := mem_relevant.mp found
    refine ⟨member, since, by simpa using outside, fun sample among counts breaches => ?_⟩
    have placed := mem_relevant.mpr ⟨among, counts⟩
    rw [split] at placed sorted
    rcases List.mem_append.mp placed with older | rest
    · have fails := before sample older
      simp [breaches] at fails
    · rcases List.mem_cons.mp rest with rfl | newer
      · exact le_refl _
      · have behind := List.rel_of_pairwise_cons (List.pairwise_append.mp sorted).2.1 newer
        exact le_of_lt behind
  · intro first
    obtain ⟨earlier, later, split⟩ := List.append_of_mem (mem_relevant.mpr ⟨first.member, first.since⟩)
    refine ⟨by simpa using first.outside, earlier, later, split, fun sample older => ?_⟩
    have placed : sample ∈ relevant dates samples faultAt := by simp [split, older]
    obtain ⟨among, counts⟩ := mem_relevant.mp placed
    rw [split] at sorted
    have below := (List.pairwise_append.mp sorted).2.2 sample older breach List.mem_cons_self
    have inBar : ¬ threshold < sample.v := fun breaches =>
      absurd (first.first sample among counts breaches) (not_le.mpr below)
    simpa using inBar

theorem insideRun_iff (positive : 1 ≤ required) (distinct : (samples.map MetricSample.t).Nodup)
    (first : FirstBreach dates samples threshold faultAt breach) :
    InsideRun dates samples threshold actionAt breach required run ↔
      ∃ earlier later, candidates dates samples faultAt actionAt breach = earlier ++ (run ++ later) ∧
        run.length = required ∧ ∀ sample ∈ run, inside threshold sample = true := by
  have sorted := @candidates_sorted dates samples faultAt actionAt breach
    distinct
  constructor
  · intro found
    have among : ∀ sample ∈ run, sample ∈ candidates dates samples faultAt actionAt breach := fun sample member =>
      (mem_candidates first).mpr
        ⟨found.member sample member, found.sinceBreach sample member, found.sinceAction sample member⟩
    obtain ⟨start, started⟩ : ∃ start, start ∈ run := by
      rw [← List.length_pos_iff_exists_mem, found.length]
      exact positive
    let below := (candidates dates samples faultAt actionAt breach).filter fun sample => run.all (sample.t < ·.t)
    let above := (candidates dates samples faultAt actionAt breach).filter fun sample => run.all (·.t < sample.t)
    have mem_below : ∀ {sample}, sample ∈ below ↔
        sample ∈ candidates dates samples faultAt actionAt breach ∧ ∀ other ∈ run, sample.t < other.t := by
      simp [below]
    have mem_above : ∀ {sample}, sample ∈ above ↔
        sample ∈ candidates dates samples faultAt actionAt breach ∧ ∀ other ∈ run, other.t < sample.t := by
      simp [above]
    refine ⟨below, above, ?_, found.length, fun sample member => by simpa [inside] using found.inside sample member⟩
    refine eq_of_sorted sorted ?_ fun sample => ?_
    · refine List.pairwise_append.mpr ⟨sorted.filter _, List.pairwise_append.mpr
        ⟨found.ordered, sorted.filter _, ?_⟩, ?_⟩
      · exact fun sample member other behind => (mem_above.mp behind).2 sample member
      · intro sample before other rest
        have least := (mem_below.mp before).2
        rcases List.mem_append.mp rest with here | behind
        · exact least other here
        · exact lt_trans (least start started) ((mem_above.mp behind).2 start started)
    · rw [List.mem_append, List.mem_append, mem_below, mem_above]
      constructor
      · intro placed
        have member := ((mem_candidates first).mp placed).1
        by_cases lower : ∀ other ∈ run, sample.t < other.t
        · exact .inl ⟨placed, lower⟩
        · by_cases upper : ∀ other ∈ run, other.t < sample.t
          · exact .inr (.inr ⟨placed, upper⟩)
          · push Not at lower upper
            obtain ⟨earlier, earlierIn, from_⟩ := lower
            obtain ⟨later, laterIn, until_⟩ := upper
            exact .inr (.inl (found.consecutive sample member earlier earlierIn later laterIn from_ until_))
      · rintro (⟨placed, _⟩ | here | ⟨placed, _⟩)
        · exact placed
        · exact among sample here
        · exact placed
  · rintro ⟨earlier, later, split, long, pass⟩
    rw [split] at sorted
    obtain ⟨_, tail, front⟩ := List.pairwise_append.mp sorted
    obtain ⟨ordered, _, back⟩ := List.pairwise_append.mp tail
    have among : ∀ sample ∈ run, sample ∈ candidates dates samples faultAt actionAt breach := by
      intro sample member
      simp [split, member]
    refine ⟨long, ordered, ?_, ?_, ?_, ?_, ?_⟩
    · exact fun sample member => ((mem_candidates first).mp (among sample member)).1
    · exact fun sample member => by simpa [inside] using pass sample member
    · exact fun sample member => ((mem_candidates first).mp (among sample member)).2.1
    · exact fun sample member => ((mem_candidates first).mp (among sample member)).2.2
    · intro sample member least leastIn most mostIn lower upper
      have bounds := (mem_candidates first).mp (among least leastIn)
      have placed : sample ∈ candidates dates samples faultAt actionAt breach :=
        (mem_candidates first).mpr ⟨member, le_trans bounds.2.1 lower,
          fun actionT acted => le_trans (bounds.2.2 actionT acted) lower⟩
      rw [split] at placed
      rcases List.mem_append.mp placed with older | rest
      · have before := front sample older least (List.mem_append_left _ leastIn)
        exact absurd lower (not_le.mpr before)
      · rcases List.mem_append.mp rest with here | newer
        · exact here
        · have behind := back most mostIn sample newer
          exact absurd upper (not_le.mpr behind)

theorem recoveryLoop_eq {rest : List MetricSample} (pass : ∀ sample ∈ run, inside threshold sample = true)
    (short : run.length < required) :
    (recoveryLoop threshold required (run.head?.map MetricSample.stamp) run.length rest).1 =
      (firstStreak (inside threshold) required (run ++ rest)).bind fun found => found.head?.map MetricSample.stamp := by
  induction rest generalizing run with
  | nil =>
      have nothing : firstStreak (inside threshold) required run = none := by
        rw [Option.eq_none_iff_forall_ne_some]
        intro found streak
        obtain ⟨earlier, rfl, starts, _⟩ := firstStreak_eq_some_iff.mp streak
        obtain ⟨streak, later, rfl, long, _⟩ := startsStreak_iff.mp starts
        simp only [List.length_append] at short
        omega
      simp [recoveryLoop, nothing]
  | cons sample rest ih =>
      rw [recoveryLoop]
      by_cases within : sample.v ≤ threshold
      · have longer : ∀ other ∈ run ++ [sample], inside threshold other = true := by
          intro other member
          rcases List.mem_append.mp member with before | here
          · exact pass other before
          · rw [List.mem_singleton.mp here]
            simpa [inside] using within
        have start : some ((run.head?.map MetricSample.stamp).getD sample.stamp) =
            (run ++ [sample]).head?.map MetricSample.stamp := by
          cases run <;> rfl
        rw [if_pos within, List.append_cons run sample rest]
        by_cases enough : required ≤ run.length + 1
        · have streak : startsStreak (inside threshold) required (run ++ [sample] ++ rest) = true :=
            startsStreak_iff.mpr ⟨run ++ [sample], rest, rfl, by rw [List.length_append, List.length_singleton]; omega,
              longer⟩
          have found : firstStreak (inside threshold) required (run ++ [sample] ++ rest) =
              some (run ++ [sample] ++ rest) :=
            firstStreak_eq_some_iff.mpr ⟨[], rfl, streak, fun _ _ _ _ => Nat.zero_le _⟩
          simp only [enough, if_true, start, found, Option.bind_some]
          cases run <;> rfl
        · simp only [enough, if_false, start]
          have later := @ih (run ++ [sample]) longer (by rw [List.length_append, List.length_singleton]; omega)
          rwa [List.length_append, List.length_singleton] at later
      · rw [if_neg within, firstStreak_skip short (by simpa [inside] using within)]
        exact @ih [] (fun _ member => by cases member) (by simp only [List.length_nil]; omega)

theorem metricRecovery_eq (positive : 1 ≤ required) :
    metricRecovery dates samples threshold faultAt required actionAt =
      match (relevant dates samples faultAt).find? fun sample => threshold < sample.v with
      | none => { breachedAt := none, recoveredAt := none, insideSince := none, sustained := false, required }
      | some breach =>
          let recoveredAt := (firstStreak (inside threshold) required
            (candidates dates samples faultAt actionAt breach)).bind fun found => found.head?.map MetricSample.stamp
          { breachedAt := some breach.stamp
            recoveredAt
            insideSince := if recoveredAt = none then
                (recoveryLoop threshold required none 0 (candidates dates samples faultAt actionAt breach)).2
              else none
            sustained := recoveredAt.isSome
            required } := by
  unfold metricRecovery
  change (match (relevant dates samples faultAt).find? _ with | none => _ | some breach => _) = _
  cases (relevant dates samples faultAt).find? fun sample => threshold < sample.v with
  | none => rfl
  | some breach =>
      have loop := @recoveryLoop_eq threshold required [] (candidates dates samples faultAt actionAt breach)
        (fun _ member => by cases member) positive
      simp only [List.head?_nil, Option.map_none, List.length_nil, List.nil_append] at loop
      simp only [← loop]
      rfl

theorem recoveredAt_eq_some_iff (positive : 1 ≤ required) (distinct : (samples.map MetricSample.t).Nodup)
    {stamp : JsString} :
    (metricRecovery dates samples threshold faultAt required actionAt).recoveredAt = some stamp ↔
      ∃ breach first rest, FirstBreach dates samples threshold faultAt breach ∧
        firstStreak (inside threshold) required (candidates dates samples faultAt actionAt breach) =
          some (first :: rest) ∧ first.stamp = stamp := by
  rw [metricRecovery_eq positive]
  cases searched : (relevant dates samples faultAt).find? fun sample => threshold < sample.v with
  | none =>
      simp only [reduceCtorEq, false_iff, not_exists, not_and]
      intro breach _ _ first
      rw [← find_breach_iff distinct, searched] at first
      cases first
  | some breach =>
      have first := (find_breach_iff distinct).mp searched
      simp only [Option.bind_eq_some_iff, Option.map_eq_some_iff]
      constructor
      · rintro ⟨found, streak, start, head, rfl⟩
        obtain ⟨rest, rfl⟩ := List.head?_eq_some_iff.mp head
        exact ⟨breach, start, rest, first, streak, rfl⟩
      · rintro ⟨other, start, rest, otherFirst, streak, rfl⟩
        rw [← find_breach_iff distinct, searched] at otherFirst
        cases otherFirst
        exact ⟨start :: rest, streak, start, rfl, rfl⟩

theorem sustained_eq : (metricRecovery dates samples threshold faultAt required actionAt).sustained =
    (metricRecovery dates samples threshold faultAt required actionAt).recoveredAt.isSome := by
  unfold metricRecovery
  dsimp only
  split <;> rfl

theorem le_of_places {items before earlier later rest : List MetricSample} {first second : MetricSample}
    (sorted : items.Pairwise fun first second => first.t < second.t) (one : items = earlier ++ first :: later)
    (other : items = before ++ second :: rest) (places : earlier.length ≤ before.length) : first.t ≤ second.t := by
  obtain ⟨between, rfl⟩ : earlier <+: before :=
    List.prefix_of_prefix_length_le ⟨_, one.symm⟩ ⟨_, other.symm⟩ places
  rw [one] at sorted other
  rw [List.append_assoc, List.append_cancel_left_eq] at other
  cases between with
  | nil =>
      rw [List.nil_append, List.cons.injEq] at other
      exact le_of_eq (congrArg MetricSample.t other.1)
  | cons head between =>
      rw [List.cons_append, List.cons.injEq] at other
      have behind := List.rel_of_pairwise_cons (List.pairwise_append.mp sorted).2.1
        (show second ∈ later by rw [other.2]; simp)
      exact le_of_lt behind

theorem streak_iff_earliest (positive : 1 ≤ required) (distinct : (samples.map MetricSample.t).Nodup)
    (first : FirstBreach dates samples threshold faultAt breach) {start : MetricSample} :
    (∃ rest, firstStreak (inside threshold) required (candidates dates samples faultAt actionAt breach) =
        some (start :: rest)) ↔
      ∃ rest, InsideRun dates samples threshold actionAt breach required (start :: rest) ∧
        ∀ other others, InsideRun dates samples threshold actionAt breach required (other :: others) →
          start.t ≤ other.t := by
  have sorted := @candidates_sorted dates samples faultAt actionAt breach
    distinct
  have earliest : ∀ {start rest}, firstStreak (inside threshold) required
      (candidates dates samples faultAt actionAt breach) = some (start :: rest) →
      ∀ other others, InsideRun dates samples threshold actionAt breach required (other :: others) →
        start.t ≤ other.t := by
    intro start rest streak other others run
    obtain ⟨earlier, split, _, least⟩ := firstStreak_eq_some_iff.mp streak
    obtain ⟨before, later, place, long, pass⟩ := (insideRun_iff positive distinct first).mp run
    have begins := least before _ place (startsStreak_iff.mpr ⟨_, later, rfl, long, pass⟩)
    exact le_of_places sorted split (place.trans (by rw [List.cons_append])) begins
  constructor
  · rintro ⟨rest, streak⟩
    obtain ⟨earlier, split, starts, _⟩ := firstStreak_eq_some_iff.mp streak
    obtain ⟨run, later, front, long, pass⟩ := startsStreak_iff.mp starts
    obtain ⟨tail, rfl⟩ : ∃ tail, run = start :: tail := by
      cases run with
      | nil => simp only [List.length_nil] at long; omega
      | cons head tail =>
          rw [List.cons_append, List.cons.injEq] at front
          exact ⟨tail, by rw [front.1]⟩
    exact ⟨tail, (insideRun_iff positive distinct first).mpr ⟨earlier, later, by rw [split, front], long, pass⟩,
      earliest streak⟩
  · rintro ⟨rest, run, before⟩
    obtain ⟨earlier, later, place, long, pass⟩ := (insideRun_iff positive distinct first).mp run
    obtain ⟨found, streak⟩ := exists_firstStreak place (startsStreak_iff.mpr ⟨_, later, rfl, long, pass⟩)
    obtain ⟨_, split, starts, _⟩ := firstStreak_eq_some_iff.mp streak
    obtain ⟨streakRun, later, rfl, streakLong, streakPass⟩ := startsStreak_iff.mp starts
    cases streakRun with
    | nil => simp only [List.length_nil] at streakLong; omega
    | cons head tail =>
        have headRun := (insideRun_iff positive distinct first).mpr ⟨_, later, split, streakLong, streakPass⟩
        have same : head.t = start.t := le_antisymm (earliest streak start rest run) (before head tail headRun)
        have one : head = start := List.inj_on_of_nodup_map distinct (headRun.member head List.mem_cons_self)
          (run.member start List.mem_cons_self) same
        subst one
        exact ⟨tail ++ later, streak⟩

theorem relevant_perm (distinct : (samples.map MetricSample.t).Nodup) (same : others.Perm samples) :
    relevant dates others faultAt = relevant dates samples faultAt := by
  have apart : (others.map MetricSample.t).Nodup := (same.map MetricSample.t).nodup_iff.mpr distinct
  refine eq_of_sorted (relevant_sorted apart) (relevant_sorted distinct) fun sample => ?_
  rw [mem_relevant, mem_relevant, same.mem_iff]

theorem relevant_append (distinct : (samples.map MetricSample.t).Nodup) (apart : (others.map MetricSample.t).Nodup)
    (later : ∀ sample ∈ samples, ∀ other ∈ others, sample.t < other.t) :
    ((samples ++ others).map MetricSample.t).Nodup ∧ relevant dates (samples ++ others) faultAt =
      relevant dates samples faultAt ++ relevant dates others faultAt := by
  have both : ((samples ++ others).map MetricSample.t).Nodup := by
    rw [List.map_append, List.nodup_append]
    refine ⟨distinct, apart, ?_⟩
    intro first firstIn second secondIn
    obtain ⟨sample, sampleIn, rfl⟩ := List.mem_map.mp firstIn
    obtain ⟨other, otherIn, rfl⟩ := List.mem_map.mp secondIn
    exact ne_of_lt (later sample sampleIn other otherIn)
  refine ⟨both, eq_of_sorted (relevant_sorted both) ?_ fun sample => ?_⟩
  · refine List.pairwise_append.mpr ⟨relevant_sorted distinct, relevant_sorted apart, ?_⟩
    exact fun sample first other second => later sample (mem_relevant.mp first).1 other (mem_relevant.mp second).1
  · rw [List.mem_append, mem_relevant, mem_relevant, mem_relevant, List.mem_append, or_and_right]

theorem metricRecovery_congr (same : relevant dates others faultAt = relevant dates samples faultAt) :
    metricRecovery dates others threshold faultAt required actionAt =
      metricRecovery dates samples threshold faultAt required actionAt := by
  unfold relevant at same
  unfold metricRecovery
  rw [same]

theorem metricRecovery_append (positive : 1 ≤ required) (distinct : (samples.map MetricSample.t).Nodup)
    (apart : (others.map MetricSample.t).Nodup)
    (later : ∀ sample ∈ samples, ∀ other ∈ others, sample.t < other.t)
    (recovered : (metricRecovery dates samples threshold faultAt required actionAt).sustained = true) :
    metricRecovery dates (samples ++ others) threshold faultAt required actionAt =
      metricRecovery dates samples threshold faultAt required actionAt := by
  obtain ⟨both, joined⟩ := @relevant_append dates _ _ faultAt distinct apart later
  rw [sustained_eq, Option.isSome_iff_exists] at recovered
  obtain ⟨stamp, found⟩ := recovered
  obtain ⟨breach, first, rest, firstBreach, streak, rfl⟩ := (recoveredAt_eq_some_iff positive distinct).mp found
  have searched := (find_breach_iff distinct).mpr firstBreach
  have longer : candidates dates (samples ++ others) faultAt actionAt breach =
      candidates dates samples faultAt actionAt breach ++ candidates dates others faultAt actionAt breach := by
    rw [candidates, joined, List.filter_append]
    rfl
  rw [metricRecovery_eq positive, metricRecovery_eq positive, joined, List.find?_append, searched, Option.some_or]
  simp only [longer, firstStreak_append streak, streak, Option.bind_some, List.cons_append, List.head?_cons,
    Option.map_some, reduceCtorEq, if_false]

/-- What `metricRecovery` reads off the samples. -/
structure ReadsRecovery (dates : DateParser) (samples : List MetricSample) (threshold : ℚ)
    (faultAt : Option JsString) (required : Nat) (actionAt : Option JsString) (reading : RecoveryReading) : Prop where
  sustained : reading.sustained = true ↔ ∃ breach run, FirstBreach dates samples threshold faultAt breach ∧
    InsideRun dates samples threshold actionAt breach required run
  recoveredAt : ∀ stamp, reading.recoveredAt = some stamp ↔
    ∃ breach first rest, FirstBreach dates samples threshold faultAt breach ∧
      InsideRun dates samples threshold actionAt breach required (first :: rest) ∧
      (∀ other others, InsideRun dates samples threshold actionAt breach required (other :: others) →
        first.t ≤ other.t) ∧ first.stamp = stamp
  anyOrder : ∀ shuffled, shuffled.Perm samples →
    metricRecovery dates shuffled threshold faultAt required actionAt = reading
  kept : ∀ later grown, (∀ sample ∈ samples, ∀ other ∈ later, sample.t < other.t) →
    (later.map MetricSample.t).Nodup → grown.Perm (samples ++ later) → reading.sustained = true →
    metricRecovery dates grown threshold faultAt required actionAt = reading

end Reading

theorem recovery_read (dates : DateParser) (samples : List MetricSample) (threshold : ℚ)
    (faultAt actionAt : Option JsString) (required : Nat) (positive : 1 ≤ required)
    (distinct : (samples.map MetricSample.t).Nodup) :
    ReadsRecovery dates samples threshold faultAt required actionAt
      (metricRecovery dates samples threshold faultAt required actionAt) where
  sustained := by
    rw [sustained_eq, Option.isSome_iff_exists]
    constructor
    · rintro ⟨stamp, found⟩
      obtain ⟨breach, first, rest, firstBreach, streak, _⟩ := (recoveredAt_eq_some_iff positive distinct).mp found
      obtain ⟨rest, run, _⟩ := (streak_iff_earliest positive distinct firstBreach).mp ⟨rest, streak⟩
      exact ⟨breach, _, firstBreach, run⟩
    · rintro ⟨breach, run, firstBreach, insideRun⟩
      obtain ⟨earlier, later, place, long, pass⟩ := (insideRun_iff positive distinct firstBreach).mp insideRun
      obtain ⟨found, streak⟩ := exists_firstStreak place (startsStreak_iff.mpr ⟨run, later, rfl, long, pass⟩)
      cases found with
      | nil =>
          obtain ⟨_, _, starts, _⟩ := firstStreak_eq_some_iff.mp streak
          simp only [startsStreak, List.length_nil, Bool.and_eq_true, decide_eq_true_eq] at starts
          omega
      | cons first rest =>
          exact ⟨first.stamp, (recoveredAt_eq_some_iff positive distinct).mpr
            ⟨breach, first, rest, firstBreach, streak, rfl⟩⟩
  recoveredAt := by
    intro stamp
    rw [recoveredAt_eq_some_iff positive distinct]
    constructor
    · rintro ⟨breach, first, rest, firstBreach, streak, rfl⟩
      obtain ⟨rest, run, least⟩ := (streak_iff_earliest positive distinct firstBreach).mp ⟨rest, streak⟩
      exact ⟨breach, first, rest, firstBreach, run, least, rfl⟩
    · rintro ⟨breach, first, rest, firstBreach, run, least, rfl⟩
      obtain ⟨rest, streak⟩ := (streak_iff_earliest positive distinct firstBreach).mpr ⟨rest, run, least⟩
      exact ⟨breach, first, rest, firstBreach, streak, rfl⟩
  anyOrder := by
    intro shuffled same
    exact metricRecovery_congr (relevant_perm distinct same)
  kept := by
    intro later grown beyond apart same recovered
    have both := (@relevant_append dates _ _ faultAt distinct apart beyond).1
    exact (metricRecovery_congr (relevant_perm both same)).trans
      (metricRecovery_append positive distinct apart beyond recovered)

/-- Lag 42, 0 and 42 again, then two samples inside of the bar. -/
def outageSamples : List MetricSample :=
  [⟨60, 42, [60]⟩, ⟨300, 3, [300]⟩, ⟨120, 0, [120]⟩, ⟨180, 42, [180]⟩, ⟨240, 8, [240]⟩]

theorem recovery_read_of_outage : ReadsRecovery (fun _ => some 30) outageSamples 20 (some [30]) 2 none
    (metricRecovery (fun _ => some 30) outageSamples 20 (some [30]) 2 none) :=
  recovery_read _ _ _ _ _ _ (by decide) (by decide +kernel)

example : (metricRecovery (fun _ => some 30) outageSamples 20 (some [30]) 2 none).recoveredAt = some [240] := by
  decide +kernel

end IncidentPlatform.Properties
