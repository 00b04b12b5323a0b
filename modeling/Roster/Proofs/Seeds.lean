import Mathlib.Data.List.Forall2
import Mathlib.Data.List.Infix
import Roster.Seeds

/-! Dialling seeds in whatever order they were shuffled into. Attempts follow the order, each after the one before it has ended, up to
the first that answers in time; if none does, every seed has its failure. -/
namespace Roster

namespace Attempt

/-- It answers before the deadline, or on it. -/
def AnswersBy (a : Attempt) (timeoutMs : Nat) : Prop := ∃ t ≤ timeoutMs, a = .answers t

/-- What an attempt fails with: its own failure if that comes in time, and else the deadline. -/
inductive FailsBy (timeoutMs : Nat) : Attempt → Failure → Prop
  | failed {t : Nat} {f : Failure} : t ≤ timeoutMs → FailsBy timeoutMs (.fails t f) f
  | answersLate {t : Nat} : timeoutMs < t → FailsBy timeoutMs (.answers t) (.timedOut "connect" (.ofMillis timeoutMs))
  | failsLate {t : Nat} {f : Failure} :
    timeoutMs < t → FailsBy timeoutMs (.fails t f) (.timedOut "connect" (.ofMillis timeoutMs))
  | hangs : FailsBy timeoutMs .hangs (.timedOut "connect" (.ofMillis timeoutMs))

/-- How long it is waited for. -/
def takes (timeoutMs : Nat) : Attempt → Nat
  | answers t | fails t _ => min t timeoutMs
  | hangs => timeoutMs

variable {a : Attempt} {timeoutMs : Nat} {f : Failure}

theorem FailsBy.not_answersBy (h : FailsBy timeoutMs a f) : ¬ a.AnswersBy timeoutMs := by
  rintro ⟨t, ht, rfl⟩
  cases h with
  | answersLate hlate => omega

theorem within_cases (a : Attempt) (timeoutMs : Nat) :
    (a.AnswersBy timeoutMs ∧ a.within timeoutMs = (a.takes timeoutMs, none)) ∨
      ∃ f, FailsBy timeoutMs a f ∧ a.within timeoutMs = (a.takes timeoutMs, some f) := by
  cases a with
  | answers t =>
    by_cases h : t ≤ timeoutMs
    · exact .inl ⟨⟨t, h, rfl⟩, by simp [within, takes, h]⟩
    · exact .inr ⟨_, .answersLate (by omega), by simp [within, takes, h]; omega⟩
  | fails t f =>
    by_cases h : t ≤ timeoutMs
    · exact .inr ⟨f, .failed h, by simp [within, takes, h]⟩
    · exact .inr ⟨_, .failsLate (by omega), by simp [within, takes, h]; omega⟩
  | hangs => exact .inr ⟨_, .hangs, rfl⟩

end Attempt

/-- The attempts at some addresses, one after the other, when `n` were made before. -/
def attemptsFrom (outcome : Nat → String → Attempt) : Nat → List String → List (String × Attempt)
  | _, [] => []
  | n, addr :: rest => (addr, outcome n addr) :: attemptsFrom outcome (n + 1) rest

abbrev attempts (outcome : Nat → String → Attempt) (order : List String) : List (String × Attempt) := attemptsFrom outcome 0 order

/-- All the time the attempts take. -/
def duration (timeoutMs : Nat) : List (String × Attempt) → Nat
  | [] => 0
  | (_, a) :: as => a.takes timeoutMs + duration timeoutMs as

/-- Every attempt failed, as it is told. -/
def Reported (timeoutMs : Nat) : List (String × Attempt) → List SeedFailure → Prop :=
  List.Forall₂ fun a failure => ∃ f, Attempt.FailsBy timeoutMs a.2 f ∧ failure = ⟨a.1, f.message⟩

variable {timeoutMs : Nat} {outcome : Nat → String → Attempt} {seeds order : List String}

@[simp] theorem map_fst_attemptsFrom (n : Nat) (order : List String) : (attemptsFrom outcome n order).map (·.1) = order := by
  induction order generalizing n with
  | nil => rfl
  | cons addr rest ih => simp [attemptsFrom, ih]

/-- What comes of the attempts that are left. Either the first that answers ends them, or all fail. -/
theorem dial_cases (timeoutMs : Nat) (outcome : Nat → String → Attempt) (rest : List String) (failures : List SeedFailure)
    (tried : List String) (elapsed : Nat) :
    (∃ before addr a after, attemptsFrom outcome tried.length rest = before ++ (addr, a) :: after ∧
      (∀ x ∈ before, ¬ x.2.AnswersBy timeoutMs) ∧ a.AnswersBy timeoutMs ∧
      dial timeoutMs outcome rest failures tried elapsed =
        ⟨.ok addr, tried.reverse ++ (before ++ [(addr, a)]).map (·.1), elapsed + duration timeoutMs (before ++ [(addr, a)])⟩) ∨
    ∃ more, Reported timeoutMs (attemptsFrom outcome tried.length rest) more ∧
      dial timeoutMs outcome rest failures tried elapsed =
        ⟨.error (.allSeedsFailed (failures.reverse ++ more)), tried.reverse ++ rest,
          elapsed + duration timeoutMs (attemptsFrom outcome tried.length rest)⟩ := by
  induction rest generalizing failures tried elapsed with
  | nil => exact .inr ⟨[], .nil, by simp [dial, duration, attemptsFrom]⟩
  | cons addr rest ih =>
    rw [attemptsFrom, dial]
    obtain ⟨hanswers, hwithin⟩ | ⟨f, hfails, hwithin⟩ := (outcome tried.length addr).within_cases timeoutMs
    · rw [hwithin]
      exact .inl ⟨[], addr, _, _, rfl, nofun, hanswers, by simp [duration]⟩
    · rw [hwithin]
      dsimp only
      obtain ⟨before, next, a, after, hsplit, hbefore, hanswers, hdial⟩ | ⟨more, hmore, hdial⟩ :=
        ih (⟨addr, f.message⟩ :: failures) (addr :: tried) (elapsed + (outcome tried.length addr).takes timeoutMs)
      · refine .inl ⟨(addr, outcome tried.length addr) :: before, next, a, after, ?_, ?_, hanswers, ?_⟩
        · rw [← List.length_cons, hsplit, List.cons_append]
        · exact List.forall_mem_cons.mpr ⟨hfails.not_answersBy, hbefore⟩
        · rw [hdial]
          simp [duration, Nat.add_assoc]
      · refine .inr ⟨⟨addr, f.message⟩ :: more, .cons ⟨f, hfails, rfl⟩ hmore, ?_⟩
        rw [hdial]
        simp [duration, Nat.add_assoc]

theorem connectSeeds_of_ne_nil (h : order ≠ []) : connectSeeds timeoutMs outcome order = dial timeoutMs outcome order [] [] 0 := by
  simp [connectSeeds, h]

theorem connectSeeds_cases (h : order ≠ []) :
    (∃ before addr a after, attempts outcome order = before ++ (addr, a) :: after ∧
      (∀ x ∈ before, ¬ x.2.AnswersBy timeoutMs) ∧ a.AnswersBy timeoutMs ∧
      connectSeeds timeoutMs outcome order =
        ⟨.ok addr, (before ++ [(addr, a)]).map (·.1), duration timeoutMs (before ++ [(addr, a)])⟩) ∨
    ∃ failures, Reported timeoutMs (attempts outcome order) failures ∧
      connectSeeds timeoutMs outcome order =
        ⟨.error (.allSeedsFailed failures), order, duration timeoutMs (attempts outcome order)⟩ := by
  rw [connectSeeds_of_ne_nil h]
  simpa using dial_cases timeoutMs outcome order [] [] 0

namespace Reported

variable {as : List (String × Attempt)} {failures : List SeedFailure}

theorem not_answersBy (h : Reported timeoutMs as failures) : ∀ a ∈ as, ¬ a.2.AnswersBy timeoutMs := by
  induction h with
  | nil => simp
  | cons hfails _ ih =>
    obtain ⟨f, hfails, -⟩ := hfails
    exact List.forall_mem_cons.mpr ⟨hfails.not_answersBy, ih⟩

/-- One failure for each attempt, in the order of the attempts. -/
theorem map_addr (h : Reported timeoutMs as failures) : failures.map (·.addr) = as.map (·.1) := by
  induction h with
  | nil => rfl
  | cons hfails _ ih =>
    obtain ⟨f, -, rfl⟩ := hfails
    simp [ih]

end Reported

/-- The attempts that are made are the first of the order, and the time is that of each after the other. -/
theorem exists_made (h : order ≠ []) :
    ∃ made, made <+: attempts outcome order ∧ (connectSeeds timeoutMs outcome order).tried = made.map (·.1) ∧
      (connectSeeds timeoutMs outcome order).elapsedMs = duration timeoutMs made := by
  obtain ⟨before, addr, a, after, hsplit, -, -, hd⟩ | ⟨failures, -, hd⟩ := connectSeeds_cases h
  · rw [hd, hsplit]
    exact ⟨before ++ [(addr, a)], ⟨after, by simp⟩, rfl, rfl⟩
  · rw [hd]
    exact ⟨attempts outcome order, List.prefix_rfl, by simp, rfl⟩

/-- Some attempt answers in time, and then the call succeeds. -/
theorem connectSeeds_ok_iff :
    (∃ addr, (connectSeeds timeoutMs outcome order).result = .ok addr) ↔
      ∃ a ∈ attempts outcome order, a.2.AnswersBy timeoutMs := by
  by_cases hnil : order = []
  · simp [hnil, connectSeeds, attemptsFrom]
  · obtain ⟨before, addr, a, after, hsplit, -, hanswers, hd⟩ | ⟨failures, hreported, hd⟩ := connectSeeds_cases hnil
    · rw [hd, hsplit]
      exact ⟨fun _ => ⟨(addr, a), by simp, hanswers⟩, fun _ => ⟨addr, rfl⟩⟩
    · rw [hd]
      exact ⟨nofun, fun ⟨a, ha, hanswers⟩ => absurd hanswers (hreported.not_answersBy a ha)⟩

/-- The address is that of the first attempt that answers, which is the last one made. -/
theorem of_connectSeeds_ok {addr : String} (h : (connectSeeds timeoutMs outcome order).result = .ok addr) :
    ∃ before a after, attempts outcome order = before ++ (addr, a) :: after ∧ (∀ x ∈ before, ¬ x.2.AnswersBy timeoutMs) ∧
      a.AnswersBy timeoutMs ∧ (connectSeeds timeoutMs outcome order).tried = before.map (·.1) ++ [addr] := by
  have hne : order ≠ [] := by
    rintro rfl
    exact nomatch h
  obtain ⟨before, first, a, after, hsplit, hbefore, hanswers, hd⟩ | ⟨failures, -, hd⟩ := connectSeeds_cases hne
  · rw [hd] at h ⊢
    obtain rfl := Except.ok.inj h
    exact ⟨before, a, after, hsplit, hbefore, hanswers, by simp⟩
  · rw [hd] at h
    exact nomatch h

theorem of_connectSeeds_error {f : Failure} (hne : order ≠ []) (h : (connectSeeds timeoutMs outcome order).result = .error f) :
    ∃ failures, f = .allSeedsFailed failures ∧ (connectSeeds timeoutMs outcome order).tried = order ∧
      Reported timeoutMs (attempts outcome order) failures := by
  obtain ⟨before, addr, a, after, -, -, -, hd⟩ | ⟨failures, hreported, hd⟩ := connectSeeds_cases hne
  · rw [hd] at h
    exact nomatch h
  · rw [hd] at h ⊢
    exact ⟨failures, (Except.error.inj h).symm, rfl, hreported⟩

/-- Where attempts at one address all go alike, the order does not tell which are made. -/
theorem mem_attemptsFrom_of_alike (halike : ∀ m n addr, outcome m addr = outcome n addr) {n : Nat} {x : String × Attempt} :
    x ∈ attemptsFrom outcome n order ↔ x.1 ∈ order ∧ x.2 = outcome 0 x.1 := by
  induction order generalizing n with
  | nil => simp [attemptsFrom]
  | cons addr rest ih =>
    rw [attemptsFrom, List.mem_cons, ih, List.mem_cons, halike n 0 addr, Prod.ext_iff]
    constructor
    · rintro (⟨hx, ha⟩ | ⟨hx, ha⟩)
      · exact ⟨.inl hx, ha.trans (hx ▸ rfl)⟩
      · exact ⟨.inr hx, ha⟩
    · rintro ⟨hx | hx, ha⟩
      · exact .inl ⟨hx, ha.trans (hx ▸ rfl)⟩
      · exact .inr ⟨hx, ha⟩

/-- In every order of the seeds and whatever comes of each attempt: the first that answers in time is taken, and nothing is tried
after it; if there is none, each seed is told with the failure of its own attempt. -/
theorem seeds_dialled_in_order (timeoutMs : Nat) (outcome : Nat → String → Attempt) (horder : order.Perm seeds) :
    let d := connectSeeds timeoutMs outcome order
    (seeds = [] → d = ⟨.error .noSeeds, [], 0⟩) ∧
    (seeds ≠ [] →
      (∃ made, made <+: attempts outcome order ∧ d.tried = made.map (·.1) ∧ d.elapsedMs = duration timeoutMs made) ∧
      ((∃ addr, d.result = .ok addr) ↔ ∃ a ∈ attempts outcome order, a.2.AnswersBy timeoutMs) ∧
      (∀ addr, d.result = .ok addr → ∃ before a after, attempts outcome order = before ++ (addr, a) :: after ∧
        (∀ x ∈ before, ¬ x.2.AnswersBy timeoutMs) ∧ a.AnswersBy timeoutMs ∧ d.tried = before.map (·.1) ++ [addr]) ∧
      ∀ f, d.result = .error f → ∃ failures, f = .allSeedsFailed failures ∧ d.tried = order ∧
        Reported timeoutMs (attempts outcome order) failures ∧ (failures.map (·.addr)).Perm seeds) ∧
    ((∀ m n addr, outcome m addr = outcome n addr) → ∀ other : List String, other.Perm seeds →
      ((∃ addr, d.result = .ok addr) ↔ ∃ addr, (connectSeeds timeoutMs outcome other).result = .ok addr)) := by
  intro d
  refine ⟨?empty, ?filled, ?alike⟩
  case empty =>
    rintro rfl
    simp [d, horder.eq_nil, connectSeeds]
  case filled =>
    intro hseeds
    have hne : order ≠ [] := fun hnil => hseeds (List.nil_perm.mp (hnil ▸ horder))
    refine ⟨exists_made hne, connectSeeds_ok_iff, fun addr => of_connectSeeds_ok, fun f hf => ?_⟩
    obtain ⟨failures, rfl, htried, hreported⟩ := of_connectSeeds_error hne hf
    refine ⟨failures, rfl, htried, hreported, ?_⟩
    rw [hreported.map_addr, map_fst_attemptsFrom]
    exact horder
  case alike =>
    intro halike other hother
    rw [connectSeeds_ok_iff, connectSeeds_ok_iff]
    simp only [mem_attemptsFrom_of_alike halike, (horder.trans hother.symm).mem_iff]

/-- Only the third attempt comes to an answer, and that on the deadline. -/
def answersAtLast : Nat → String → Attempt
  | 2, _ => .answers 100
  | 1, _ => .fails 150 .channel
  | _, _ => .hangs

/-- One address answers whenever it is tried. -/
def onlyA (_ : Nat) (addr : String) : Attempt := if addr = "a" then .answers 5 else .hangs

theorem last_seed_answers :
    ["b", "a", "a"].Perm ["a", "b", "a"] ∧ ["a", "b", "a"] ≠ [] ∧ ["a", "a", "b"].Perm ["a", "b", "a"] ∧
    (connectSeeds 100 answersAtLast ["b", "a", "a"]).result = .ok "a" ∧
    (∃ before a after, attempts answersAtLast ["b", "a", "a"] = before ++ ("a", a) :: after ∧
      (∀ x ∈ before, ¬ x.2.AnswersBy 100) ∧ a.AnswersBy 100 ∧
      (connectSeeds 100 answersAtLast ["b", "a", "a"]).tried = before.map (·.1) ++ ["a"]) ∧
    ((∃ addr, (connectSeeds 100 onlyA ["b", "a", "a"]).result = .ok addr) ↔
      ∃ addr, (connectSeeds 100 onlyA ["a", "a", "b"]).result = .ok addr) := by
  have horder : ["b", "a", "a"].Perm ["a", "b", "a"] := by decide
  have hother : ["a", "a", "b"].Perm ["a", "b", "a"] := by decide
  have hseeds : ["a", "b", "a"] ≠ [] := by decide
  have hok : (connectSeeds 100 answersAtLast ["b", "a", "a"]).result = .ok "a" := rfl
  obtain ⟨-, hfilled, -⟩ := seeds_dialled_in_order 100 answersAtLast horder
  obtain ⟨-, -, halike⟩ := seeds_dialled_in_order 100 onlyA horder
  exact ⟨horder, hseeds, hother, hok, (hfilled hseeds).2.2.1 "a" hok, halike (fun _ _ _ => rfl) _ hother⟩

end Roster
