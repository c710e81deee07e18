import Mathlib.Data.List.Dedup
import Mathlib.Data.String.Basic
import StackMachine.Proofs.Registration

/-!
# A registry in use

A registry is asked one thing after the other. It stays sound, so the programs that it hands out are safe to run: they
can fail because of a value only, and the only names that it turns down are those that are not registered
(`compile_after`). Its answers are those of a ledger, a plain list of the registrations that succeeded, with a cache and
without one (`answers_eq_ledger`).
-/

namespace StackMachine

namespace Registry

/-- What a registry can be asked. -/
inductive Call where
  | register (name : Literal) (items : List Item)
  | compile (name : String)
  | names
  | clearCache
  | stats

/-- What a registry answers. -/
inductive Answer where
  | registered (result : Except Refusal Unit)
  | compiled (result : Except Refusal Program)
  | names (names : List String)
  | cleared
  | stats (stats : CacheStats)

/-- The answer, unless it is about the cache. -/
def Answer.content? : Answer → Option Answer
  | .stats _ => none
  | answer => some answer

/-- The registry after a call, and its answer. -/
def serve (r : Registry) : Call → Registry × Answer
  | .register name items => ((r.register name items).1, .registered (r.register name items).2)
  | .compile name => ((r.compile name).1, .compiled (r.compile name).2)
  | .names => (r, .names r.names)
  | .clearCache => (r.clearCache, .cleared)
  | .stats => (r, .stats r.stats)

/-- The registry after a sequence of calls. -/
def after (r : Registry) : List Call → Registry
  | [] => r
  | call :: rest => (r.serve call).1.after rest

/-- The answers to a sequence of calls. -/
def answers (r : Registry) : List Call → List Answer
  | [] => []
  | call :: rest => (r.serve call).2 :: (r.serve call).1.answers rest

variable {r : Registry}

/-! ### Sound registries stay sound -/

theorem Sound.serve (hr : r.Sound) (call : Call) : (r.serve call).1.Sound := by
  cases call with
  | register name items => exact hr.register name items
  | compile name => exact hr.compile name
  | clearCache => exact hr.clearCache
  | names | stats => exact hr

theorem Sound.after (hr : r.Sound) (calls : List Call) : (r.after calls).Sound := by
  induction calls generalizing r with
  | nil => exact hr
  | cons call rest ih => exact ih (hr.serve call)

theorem register_refused {name : Literal} (h : ∀ s, name = .text s → s = "") (items : List Item) :
    ∃ refusal, (r.register name items).2 = .error refusal := by
  rcases r.register_cases name items with ⟨s, hs, -⟩ | ⟨refusal, -, he⟩
  · obtain ⟨hname, hne, -⟩ := accept_eq_ok_iff.mp hs
    exact absurd (h s hname) hne
  · exact ⟨refusal, by rw [he]⟩

/-- Whatever a registry was asked, its templates are accepted programs under names that are not empty, and its cache
holds programs of its templates. So it turns a name down only if it is not registered, and what it hands out can fail
because of a value only. -/
theorem compile_after (caching : Bool) (pairs : List (Literal × List Item)) (r₀ : Registry)
    (h : (ofPairs caching pairs).1 = .ok r₀) (calls : List Call) :
    let r := r₀.after calls
    (∀ name items, r.templates[name]? = some items → name ≠ "" ∧ (⟨name, items⟩ : Program).IsAccepted) ∧
    (∀ name (p : Program), r.cache[name]? = some p → p.name = name ∧ r.templates[name]? = some p.items ∧ p.IsAccepted) ∧
    (∀ name items, (∀ s, name = .text s → s = "") → ∃ refusal, (r.register name items).2 = .error refusal) ∧
    (∀ name, match (r.compile name).2 with
      | .ok p => p.outcome.FailsByValueOnly
      | .error refusal => refusal = .unknownProgram name r.names) ∧
    (r.compile "").2 = .error (.unknownProgram "" r.names) := by
  intro r
  have hr : r.Sound := (sound_of_ofPairs h).after calls
  refine ⟨fun _ _ => hr.template, fun name p hp => ?_, fun _ items hname => register_refused hname items,
    fun name => ?_, ?_⟩
  · obtain ⟨-, rfl, htemplate⟩ := hr.cached hp
    exact ⟨rfl, htemplate, (hr.template htemplate).2⟩
  · rcases hr.compile_cases name with ⟨-, hc⟩ | ⟨items, hitems, ⟨-, -, hc⟩ | ⟨-, -, hc⟩⟩ <;> rw [hc]
    all_goals exact (hr.template hitems).2.failsByValueOnly
  · rcases hr.compile_cases "" with ⟨-, hc⟩ | ⟨items, hitems, -⟩
    · rw [hc]
    · exact absurd rfl (hr.template hitems).1

theorem compile_after_defaults :
    let r := Registry.default.after
      [.compile "frontend", .register (.text "frontend") [.instruction .add], .register (.text "") [], .clearCache,
        .compile "backend"]
    (ofPairs true defaultPairs).1 = .ok Registry.default ∧
    (∀ name (p : Program), r.cache[name]? = some p → p.name = name ∧ r.templates[name]? = some p.items ∧ p.IsAccepted) ∧
    (r.compile "").2 = .error (.unknownProgram "" r.names) :=
  have h := compile_after true defaultPairs Registry.default rfl
    [.compile "frontend", .register (.text "frontend") [.instruction .add], .register (.text "") [], .clearCache,
      .compile "backend"]
  ⟨rfl, h.2.1, h.2.2.2.2⟩

end Registry

/-! ### Ledgers -/

open Registry

/-- The registrations that succeeded, the latest first. -/
abbrev Ledger := List (String × List Item)

namespace Ledger

/-- The names in ascending order. -/
def names (l : Ledger) : List String :=
  (l.map Prod.fst).dedup.mergeSort

/-- Enters a registration if it is acceptable. -/
def register (l : Ledger) (name : Literal) (items : List Item) : Ledger × Except Refusal Unit :=
  match accept name items with
  | .ok s => ((s, items) :: l, .ok ())
  | .error refusal => (l, .error refusal)

/-- The program of the latest template of a name. -/
def compile (l : Ledger) (name : String) : Except Refusal Program :=
  match l.lookup name with
  | some items => .ok ⟨name, items⟩
  | none => .error (.unknownProgram name l.names)

/-- The ledger after a call, and its answer. It knows nothing of a cache. -/
def serve (l : Ledger) : Registry.Call → Ledger × Option Answer
  | .register name items => ((l.register name items).1, some (.registered (l.register name items).2))
  | .compile name => (l, some (.compiled (l.compile name)))
  | .names => (l, some (.names l.names))
  | .clearCache => (l, some .cleared)
  | .stats => (l, none)

/-- The answers to a sequence of calls. -/
def answers (l : Ledger) : List Registry.Call → List (Option Answer)
  | [] => []
  | call :: rest => (l.serve call).2 :: answers (l.serve call).1 rest

/-- Enters pairs one after the other until one of them is refused. -/
def registerAll (l : Ledger) : List (Literal × List Item) → Except Refusal Ledger
  | [] => .ok l
  | (name, items) :: rest =>
    match l.register name items with
    | (l', .ok _) => registerAll l' rest
    | (_, .error refusal) => .error refusal

/-- The ledger knows the templates of the registry. -/
structure Records (l : Ledger) (r : Registry) : Prop where
  sound : r.Sound
  lookup : ∀ name, r.templates[name]? = l.lookup name

section

variable {l : Ledger} {r : Registry}

theorem mem_names {name : String} : name ∈ l.names ↔ (l.lookup name).isSome := by
  rw [names, List.mem_mergeSort, List.mem_dedup, List.lookup_isSome_iff, List.mem_map]
  constructor
  · rintro ⟨p, hp, rfl⟩
    exact ⟨p, hp, beq_self_eq_true _⟩
  · rintro ⟨p, hp, hname⟩
    exact ⟨p, hp, (eq_of_beq hname).symm⟩

theorem nodup_names (l : Ledger) : l.names.Nodup :=
  (List.mergeSort_perm _ _).nodup_iff.mpr (List.nodup_dedup _)

theorem pairwise_names (l : Ledger) : l.names.Pairwise (· ≤ ·) := by
  have h := @List.pairwise_mergeSort String (fun a b => a ≤ b)
    (by simpa using fun a b c => le_trans) (by simpa using le_total) (l.map Prod.fst).dedup
  simp only [decide_eq_true_eq] at h
  exact h

namespace Records

/-- Both are the registered names in ascending order. -/
theorem names_eq (h : l.Records r) : r.names = l.names := by
  have hmem : ∀ name, name ∈ r.names ↔ name ∈ l.names := by
    intro name
    rw [mem_names, ← h.lookup, Registry.mem_names]
  have hperm : r.names.Perm l.names :=
    (List.perm_ext_iff_of_nodup Std.TreeMap.nodup_keys l.nodup_names).mpr hmem
  have hordered : r.names.Pairwise fun a b => compare a b = .lt := Std.TreeMap.ordered_keys
  have hsorted : r.names.Pairwise (· ≤ ·) :=
    hordered.imp fun hab => le_of_lt (compareOfLessAndEq_eq_lt.mp hab)
  exact hperm.eq_of_pairwise (fun a b _ _ => le_antisymm) hsorted l.pairwise_names

theorem register (h : l.Records r) (name : Literal) (items : List Item) :
    (l.register name items).1.Records (r.register name items).1 ∧
      (r.register name items).2 = (l.register name items).2 := by
  have hsound := h.sound.register name items
  rcases r.register_cases name items with ⟨s, hs, hr⟩ | ⟨refusal, hs, hr⟩
  · rw [hr] at hsound ⊢
    simp only [Ledger.register, hs]
    refine ⟨⟨hsound, fun n => ?_⟩, trivial⟩
    rw [getElem?_insert, List.lookup_cons, h.lookup]
    by_cases heq : s = n
    · rw [if_pos heq, heq, beq_self_eq_true]
    · rw [if_neg heq, beq_false_of_ne (Ne.symm heq)]
  · simp only [Ledger.register, hs, hr]
    exact ⟨h, trivial⟩

theorem compile (h : l.Records r) (name : String) :
    l.Records (r.compile name).1 ∧ (r.compile name).2 = l.compile name := by
  refine ⟨⟨h.sound.compile name, fun n => ?_⟩, ?_⟩
  · rw [compile_templates, h.lookup]
  · rw [h.sound.compile_snd, h.lookup, h.names_eq]
    rfl

/-- A call leaves the ledger and the registry with the same templates, and both give the same answer. -/
theorem serve (h : l.Records r) (call : Registry.Call) :
    (l.serve call).1.Records (r.serve call).1 ∧ (r.serve call).2.content? = (l.serve call).2 := by
  cases call with
  | register name items =>
    obtain ⟨hrecords, hanswer⟩ := h.register name items
    exact ⟨hrecords, by simp only [Registry.serve, Ledger.serve, Answer.content?, hanswer]⟩
  | compile name =>
    obtain ⟨hrecords, hanswer⟩ := h.compile name
    exact ⟨hrecords, by simp only [Registry.serve, Ledger.serve, Answer.content?, hanswer]⟩
  | names => exact ⟨h, by simp only [Registry.serve, Ledger.serve, Answer.content?, h.names_eq]⟩
  | clearCache => exact ⟨⟨h.sound.clearCache, h.lookup⟩, rfl⟩
  | stats => exact ⟨h, rfl⟩

theorem answers (h : l.Records r) (calls : List Registry.Call) :
    (r.answers calls).map Answer.content? = l.answers calls := by
  induction calls generalizing l r with
  | nil => rfl
  | cons call rest ih =>
    obtain ⟨hrecords, hanswer⟩ := h.serve call
    simp only [Registry.answers, Ledger.answers, List.map_cons, hanswer, ih hrecords]

end Records

end

/-- The ledger of the pairs that a registry is built of. -/
def ofPairs (pairs : List (Literal × List Item)) : Except Refusal Ledger :=
  registerAll [] (merge pairs)

end Ledger

namespace Registry

/-- What can be seen of the registry of the given pairs, the cache aside: the refusal of one of them, or the answers to
the calls that follow. -/
def observed (caching : Bool) (pairs : List (Literal × List Item)) (calls : List Call) :
    Except Refusal (List (Option Answer)) :=
  (ofPairs caching pairs).1.map fun r => (r.answers calls).map Answer.content?

theorem observed_registerAll {l : Ledger} {r : Registry} (h : l.Records r) (pairs : List (Literal × List Item))
    (calls : List Call) :
    (r.registerAll pairs).1.map (fun r' => (r'.answers calls).map Answer.content?) =
      (l.registerAll pairs).map fun l' => l'.answers calls := by
  induction pairs generalizing l r with
  | nil => exact congrArg Except.ok (h.answers calls)
  | cons pair rest ih =>
    obtain ⟨name, items⟩ := pair
    have hrecords := (h.register name items).1
    cases ha : accept name items with
    | ok s =>
      have hl : l.registerAll ((name, items) :: rest) = (l.register name items).1.registerAll rest := by
        simp only [Ledger.registerAll, Ledger.register, ha]
      rw [registerAll_cons_ok ha, hl, ih hrecords]
    | error refusal =>
      have hl : l.registerAll ((name, items) :: rest) = .error refusal := by
        simp only [Ledger.registerAll, Ledger.register, ha]
      rw [registerAll_cons_error ha, hl]
      rfl

/-- The cache cannot be seen: a registry with it and one without it answer alike, and both answer like the ledger. -/
theorem answers_eq_ledger (pairs : List (Literal × List Item)) (calls : List Call) :
    observed true pairs calls = observed false pairs calls ∧
    ∀ caching, observed caching pairs calls = (Ledger.ofPairs pairs).map fun l => l.answers calls := by
  have h : ∀ caching, observed caching pairs calls = (Ledger.ofPairs pairs).map fun l => l.answers calls := by
    intro caching
    have hempty : Ledger.Records [] (empty caching) := ⟨sound_empty caching, fun name => by simp [empty]⟩
    exact observed_registerAll hempty (merge pairs) calls
  exact ⟨(h true).trans (h false).symm, h⟩

end Registry

end StackMachine
