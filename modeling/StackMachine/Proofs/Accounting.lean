import StackMachine.Proofs.History

/-!
# The cache and its counters

What is in the cache of a registry, and what its counters say, follows from what the registry was asked and what it
answered. A name is warm if its program was handed out and the name was neither registered anew nor the cache cleared
since. The cache holds the programs of the warm names; compiling a warm name is a hit, and compiling any other registered
name builds its program (`Accounts`). So the statistics can be read off the history (`stats_after`).
-/

namespace StackMachine

namespace Registry

/-! ### Histories -/

/-- A call and its answer. -/
abbrev Exchange := Call × Answer

namespace Exchange

/-- The name of the program that was handed out. -/
def compiled? : Exchange → Option String
  | (.compile name, .compiled (.ok _)) => some name
  | _ => none

/-- Whether the exchange takes the program of the name out of a cache. -/
def forgets (name : String) : Exchange → Bool
  | (.register n _, .registered (.ok _)) => n = .text name
  | (.clearCache, _) => true
  | _ => false

end Exchange

/-- What was asked and answered, the latest first. -/
def history (r : Registry) (calls : List Call) : List Exchange :=
  (calls.zip (r.answers calls)).reverse

/-- The program of the name was handed out, and no exchange since then forgets it. -/
def Warm (name : String) (past : List Exchange) : Prop :=
  ∃ later e earlier,
    past = later ++ e :: earlier ∧ e.compiled? = some name ∧ ∀ d ∈ later, d.forgets name = false

/-- How many programs were handed out under a name and after a past that pass the test. -/
def countCompiled (test : String → List Exchange → Bool) : List Exchange → Nat
  | [] => 0
  | e :: past =>
    countCompiled test past + match e.compiled? with
      | some name => if test name past then 1 else 0
      | none => 0

variable {r : Registry} {name : String} {e : Exchange} {past : List Exchange}

theorem history_cons (r : Registry) (call : Call) (rest : List Call) :
    r.history (call :: rest) = (r.serve call).1.history rest ++ [(call, (r.serve call).2)] := by
  simp only [history, answers, List.zip_cons_cons, List.reverse_cons]

theorem not_warm_nil : ¬ Warm name [] := by
  rintro ⟨later, e, earlier, h, -⟩
  simp at h

theorem warm_cons : Warm name (e :: past) ↔ e.compiled? = some name ∨ e.forgets name = false ∧ Warm name past := by
  constructor
  · rintro ⟨later, d, earlier, h, hd, hlater⟩
    cases later with
    | nil =>
      injection h with h
      exact .inl (h ▸ hd)
    | cons x later =>
      injection h with hx h
      refine .inr ⟨hx ▸ hlater x List.mem_cons_self, later, d, earlier, h, hd, ?_⟩
      exact fun y hy => hlater y (List.mem_cons_of_mem x hy)
  · rintro (he | ⟨he, later, d, earlier, rfl, hd, hlater⟩)
    · exact ⟨[], e, past, rfl, he, by simp⟩
    · exact ⟨e :: later, d, earlier, rfl, hd, by simpa [he] using hlater⟩

instance Warm.decidable (name : String) : (past : List Exchange) → Decidable (Warm name past)
  | [] => .isFalse not_warm_nil
  | _ :: past =>
    haveI := Warm.decidable name past
    decidable_of_iff _ warm_cons.symm

theorem warm_compiled {n : String} {p : Program} :
    Warm n ((.compile name, .compiled (.ok p)) :: past) ↔ name = n ∨ Warm n past := by
  rw [warm_cons]
  simp only [Exchange.compiled?, Exchange.forgets, Option.some.injEq, true_and]

theorem countCompiled_cons_none (he : e.compiled? = none) (test : String → List Exchange → Bool) :
    countCompiled test (e :: past) = countCompiled test past := by
  simp only [countCompiled, he, Nat.add_zero]

theorem countCompiled_cons_some (he : e.compiled? = some name) (test : String → List Exchange → Bool) :
    countCompiled test (e :: past) = countCompiled test past + if test name past then 1 else 0 := by
  simp only [countCompiled, he]

/-- A program is handed out either way. -/
theorem countCompiled_add_not (test : String → List Exchange → Bool) (past : List Exchange) :
    countCompiled test past + countCompiled (fun name past => !test name past) past =
      past.countP fun e => e.compiled?.isSome := by
  induction past with
  | nil => rfl
  | cons e past ih =>
    rw [List.countP_cons, ← ih]
    cases he : e.compiled? with
    | none =>
      rw [countCompiled_cons_none he, countCompiled_cons_none he]
      simp
    | some name =>
      rw [countCompiled_cons_some he, countCompiled_cons_some he]
      cases test name past <;> simp <;> omega

theorem countCompiled_false (past : List Exchange) : countCompiled (fun _ _ => false) past = 0 := by
  induction past with
  | nil => rfl
  | cons e past ih =>
    cases he : e.compiled? with
    | none => rw [countCompiled_cons_none he, ih]
    | some name =>
      rw [countCompiled_cons_some he, ih]
      rfl

/-! ### The accounts -/

/-- A registry and what it was asked so far: the cache holds the programs of the warm names, and the counters tell the
compilations of warm names from the others. Nothing counts as warm without a cache. -/
structure Accounts (r : Registry) (past : List Exchange) : Prop where
  sound : r.Sound
  mem_cache : ∀ name, name ∈ r.cache ↔ r.caching = true ∧ Warm name past
  hits : r.hits = countCompiled (fun name past => r.caching && Warm name past) past
  compilations : r.compilations = countCompiled (fun name past => !(r.caching && Warm name past)) past

namespace Accounts

/-- What hands out nothing and forgets nothing can be left out of the books. -/
theorem of_quiet (h : Accounts r past) (hcompiled : e.compiled? = none) (hforgets : ∀ name, e.forgets name = false) :
    Accounts r (e :: past) where
  sound := h.sound
  mem_cache name := by
    rw [h.mem_cache, warm_cons, hcompiled, hforgets]
    simp
  hits := by rw [countCompiled_cons_none hcompiled, h.hits]
  compilations := by rw [countCompiled_cons_none hcompiled, h.compilations]

theorem register (h : Accounts r past) (name : Literal) (items : List Item) :
    Accounts (r.register name items).1 ((.register name items, .registered (r.register name items).2) :: past) := by
  have hsound := h.sound.register name items
  rcases r.register_cases name items with ⟨s, hs, hr⟩ | ⟨refusal, -, hr⟩ <;> rw [hr] at hsound ⊢
  · obtain ⟨rfl, -⟩ := accept_eq_ok_iff.mp hs
    refine ⟨hsound, fun n => ?_, h.hits, h.compilations⟩
    have hforgets : Exchange.forgets n (.register (.text s) items, .registered (.ok ())) = false ↔
        compare s n ≠ .eq := by
      simp [Exchange.forgets]
    rw [Std.TreeMap.mem_erase, h.mem_cache, warm_cons, hforgets]
    simp only [Exchange.compiled?, reduceCtorEq, false_or]
    exact and_left_comm
  · exact h.of_quiet rfl fun _ => rfl

theorem compile (h : Accounts r past) (name : String) :
    Accounts (r.compile name).1 ((.compile name, .compiled (r.compile name).2) :: past) := by
  have hsound := h.sound.compile name
  rcases h.sound.compile_cases name with ⟨-, hc⟩ | ⟨items, -, ⟨hin, -, hc⟩ | ⟨hout, -, hc⟩⟩ <;> rw [hc] at hsound ⊢
  · exact h.of_quiet rfl fun _ => rfl
  · obtain ⟨hcaching, hwarm⟩ := (h.mem_cache name).mp hin
    refine ⟨hsound, fun n => ?_, ?_, ?_⟩
    · rw [h.mem_cache, warm_compiled]
      constructor
      · exact And.imp_right .inr
      · rintro ⟨-, rfl | hn⟩
        · exact ⟨hcaching, hwarm⟩
        · exact ⟨hcaching, hn⟩
    · rw [countCompiled_cons_some rfl, ← h.hits]
      simp [hcaching, hwarm]
    · rw [countCompiled_cons_some rfl, ← h.compilations]
      simp [hcaching, hwarm]
  · have hcold : ¬ (r.caching = true ∧ Warm name past) := fun hwarm => hout ((h.mem_cache name).mpr hwarm)
    refine ⟨hsound, fun n => ?_, ?_, ?_⟩
    · rw [warm_compiled]
      by_cases hcaching : r.caching = true
      · simp [hcaching, Std.TreeMap.mem_insert, h.mem_cache]
      · simp [hcaching, h.mem_cache]
    · rw [countCompiled_cons_some rfl, ← h.hits]
      simp [hcold]
    · rw [countCompiled_cons_some rfl, ← h.compilations]
      simp [hcold]

theorem clearCache (h : Accounts r past) (answer : Answer) : Accounts r.clearCache ((.clearCache, answer) :: past) where
  sound := h.sound.clearCache
  mem_cache name := by rw [warm_cons]; simp [Registry.clearCache, Exchange.compiled?, Exchange.forgets]
  hits := h.hits
  compilations := h.compilations

theorem serve (h : Accounts r past) (call : Call) : Accounts (r.serve call).1 ((call, (r.serve call).2) :: past) := by
  cases call with
  | register name items => exact h.register name items
  | compile name => exact h.compile name
  | clearCache => exact h.clearCache .cleared
  | names | stats => exact h.of_quiet rfl fun _ => rfl

theorem after (h : Accounts r past) (calls : List Call) : Accounts (r.after calls) (r.history calls ++ past) := by
  induction calls generalizing r past with
  | nil => exact h
  | cons call rest ih =>
    rw [history_cons, List.append_assoc]
    exact ih (h.serve call)

theorem find_eq_cache_iff (h : Accounts r past) (hcaching : r.caching = true) {p : Program}
    (hp : (r.compile name).2 = .ok p) : r.find name = .ok (p, .cache) ↔ Warm name past := by
  have hmem : name ∈ r.cache ↔ Warm name past := by
    rw [h.mem_cache, hcaching, and_iff_right rfl]
  rcases h.sound.compile_cases name with ⟨-, hc⟩ | ⟨items, -, ⟨hin, hf, hc⟩ | ⟨hout, hf, hc⟩⟩ <;> rw [hc] at hp
  · cases hp
  · obtain rfl := Except.ok.inj hp
    exact iff_of_true hf (hmem.mp hin)
  · refine iff_of_false (fun hcache => ?_) (mt hmem.mpr hout)
    rw [hf] at hcache
    cases hcache

theorem hits_add_compilations (h : Accounts r past) :
    r.hits + r.compilations = past.countP fun e => e.compiled?.isSome := by
  rw [h.hits, h.compilations, countCompiled_add_not]

theorem hits_eq_zero (h : Accounts r past) (hcaching : r.caching = false) : r.hits = 0 := by
  rw [h.hits]
  simp only [hcaching, Bool.false_and]
  exact countCompiled_false past

theorem exists_size_eq (h : Accounts r past) (hcaching : r.caching = true) :
    ∃ names : List String, names.Nodup ∧ (∀ name, name ∈ names ↔ Warm name past) ∧ r.stats.size = names.length := by
  refine ⟨r.cache.keys, Std.TreeMap.nodup_keys, fun name => ?_, Std.TreeMap.length_keys.symm⟩
  rw [Std.TreeMap.mem_keys, h.mem_cache, hcaching, and_iff_right rfl]

theorem size_eq_zero (h : Accounts r past) (hcaching : r.caching = false) : r.stats.size = 0 := by
  have hempty : r.cache.isEmpty = true := by
    rw [Std.TreeMap.isEmpty_iff_forall_not_mem]
    intro name hname
    rw [h.mem_cache, hcaching] at hname
    cases hname.1
  rwa [Std.TreeMap.isEmpty_eq_size_eq_zero, beq_iff_eq] at hempty

end Accounts

/-! ### Registries from the start -/

theorem after_caching (r : Registry) (calls : List Call) : (r.after calls).caching = r.caching := by
  induction calls generalizing r with
  | nil => rfl
  | cons call rest ih =>
    refine (ih (r.serve call).1).trans ?_
    cases call with
    | register name items => exact r.register_caching name items
    | compile name => exact r.compile_caching name
    | names | clearCache | stats => rfl

theorem accounts_of_ofPairs {caching : Bool} {pairs : List (Literal × List Item)}
    (h : (ofPairs caching pairs).1 = .ok r) : Accounts r [] ∧ r.caching = caching := by
  have hempty : Accounts (empty caching) [] := ⟨sound_empty caching, by simp [empty, not_warm_nil], rfl, rfl⟩
  refine registerAll_invariant (P := fun r => Accounts r [] ∧ r.caching = caching) ?_ ⟨hempty, rfl⟩ h
  rintro r name items ⟨hr, hcaching⟩
  have hafter := hr.register name items
  refine ⟨⟨hafter.sound, fun n => ?_, hafter.hits, hafter.compilations⟩, (r.register_caching name items).trans hcaching⟩
  rw [hafter.mem_cache, warm_cons]
  simp [Exchange.compiled?, not_warm_nil]

/-- With a cache, the compilations of warm names are the hits, the others build programs, and the cache is as large as
there are warm names. Without a cache every compilation builds a program. A call that is refused changes nothing, and
only compilations change the counters. -/
theorem stats_after (caching : Bool) (pairs : List (Literal × List Item)) (r₀ : Registry)
    (h : (ofPairs caching pairs).1 = .ok r₀) (calls : List Call) :
    let r := r₀.after calls
    let past := r₀.history calls
    (caching = true →
      (∀ name p, (r.compile name).2 = .ok p → (r.find name = .ok (p, .cache) ↔ Warm name past)) ∧
      r.stats.hits = countCompiled (fun name past => Warm name past) past ∧
      r.stats.compilations = countCompiled (fun name past => ¬ Warm name past) past ∧
      r.stats.hits + r.stats.compilations = past.countP (fun e => e.compiled?.isSome) ∧
      ∃ names : List String, names.Nodup ∧ (∀ name, name ∈ names ↔ Warm name past) ∧ r.stats.size = names.length) ∧
    (caching = false →
      r.stats.hits = 0 ∧ r.stats.size = 0 ∧ r.stats.compilations = past.countP fun e => e.compiled?.isSome) ∧
    r.stats.compilations = r.compilations ∧
    (∀ name items refusal, (r.register name items).2 = .error refusal → (r.register name items).1 = r) ∧
    (∀ name refusal, (r.compile name).2 = .error refusal → (r.compile name).1 = r) ∧
    (∀ name items, (r.register name items).1.hits = r.hits ∧ (r.register name items).1.compilations = r.compilations) ∧
    r.clearCache.hits = r.hits ∧ r.clearCache.compilations = r.compilations := by
  intro r past
  obtain ⟨hstart, hcaching⟩ := accounts_of_ofPairs h
  have hr : Accounts r past := by
    have hafter := hstart.after calls
    rwa [List.append_nil] at hafter
  replace hcaching : r.caching = caching := (after_caching r₀ calls).trans hcaching
  refine ⟨?_, ?_, rfl, fun _ _ _ => register_of_error, fun _ _ => compile_of_error, r.register_counters, rfl, rfl⟩
  · rintro rfl
    have hhits := hr.hits
    have hcompilations := hr.compilations
    simp only [hcaching, Bool.true_and] at hhits hcompilations
    refine ⟨fun _ _ => hr.find_eq_cache_iff hcaching, hhits, ?_, hr.hits_add_compilations, hr.exists_size_eq hcaching⟩
    simp only [decide_not]
    exact hcompilations
  · rintro rfl
    have hhits := hr.hits_eq_zero hcaching
    have hsum := hr.hits_add_compilations
    rw [hhits, Nat.zero_add] at hsum
    exact ⟨hhits, hr.size_eq_zero hcaching, hsum⟩

theorem stats_after_defaults :
    let calls : List Call :=
      [.compile "frontend", .compile "frontend", .register (.text "frontend") [.instruction (.pushInt (.int 7))],
        .compile "frontend", .compile "backend", .compile "sideend"]
    let r := Registry.default.after calls
    let past := Registry.default.history calls
    (ofPairs true defaultPairs).1 = .ok Registry.default ∧
    r.stats = ⟨2, 3, 1⟩ ∧
    r.stats.hits = countCompiled (fun name past => Warm name past) past ∧
    r.stats.compilations = countCompiled (fun name past => ¬ Warm name past) past ∧
    ∃ names : List String, names.Nodup ∧ (∀ name, name ∈ names ↔ Warm name past) ∧ r.stats.size = names.length := by
  intro calls
  have h := (stats_after true defaultPairs Registry.default rfl calls).1 rfl
  exact ⟨rfl, rfl, h.2.1, h.2.2.1, h.2.2.2.2⟩

end Registry

end StackMachine
