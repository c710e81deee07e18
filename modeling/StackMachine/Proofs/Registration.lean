import Mathlib.Data.List.Induction
import StackMachine.Proofs.Agreement
import StackMachine.Registry

/-!
# What a registry holds

A registry holds templates that the checker accepts, under names that are not empty, and its cache holds programs of its
templates (`Registry.Sound`). The operations keep it so. Therefore the check of a template never fails when a program is
built from it, and compiling a name is a matter of whether it is registered and whether it is in the cache
(`Registry.Sound.compile_cases`). At first a registry holds what it is given, under each name the last template
(`Registry.templates_of_ofPairs`), so that of a mapping it holds all entries (`Registry.templates_of_mapping`).
-/

namespace StackMachine

/-! ### Accepted programs -/

/-- The checker accepts the program. -/
def Program.IsAccepted (p : Program) : Prop := ∃ summary, p.validate = .accepted summary

/-- The outcome is a success, or a fault for which a value on the stack is to blame. -/
def Outcome.FailsByValueOnly : Outcome → Prop
  | .halted .. => True
  | .faulted f _ => f.report.kind ∈ Report.Kind.valueFaults
  | .unwritable => False

theorem Program.IsAccepted.failsByValueOnly {p : Program} (h : p.IsAccepted) : p.outcome.FailsByValueOnly := by
  obtain ⟨summary, h⟩ := h
  have hcovers := covers_of_accepted h
  cases hp : p.outcome with
  | halted v s => trivial
  | faulted f s =>
    rw [hp] at hcovers
    exact hcovers.1
  | unwritable =>
    rw [hp] at hcovers
    exact hcovers

namespace Registry

variable {r : Registry} {name : String} {items : List Item}

/-! ### One registration -/

theorem checkTemplate_eq_ok_iff {p : Program} {u : Unit} : checkTemplate p = .ok u ↔ p.IsAccepted := by
  unfold checkTemplate Program.IsAccepted
  cases p.validate <;> simp

theorem accept_text (s : String) (items : List Item) :
    accept (.text s) items =
      if s = "" then .error (.badName (.text s)) else (checkTemplate ⟨s, items⟩).map fun _ => s := by
  simp [accept]

/-- Accepted is a program that the checker accepts, under a text that is not empty. -/
theorem accept_eq_ok_iff {name : Literal} {s : String} :
    accept name items = .ok s ↔ name = .text s ∧ s ≠ "" ∧ (⟨s, items⟩ : Program).IsAccepted := by
  cases name with
  | null | bool | int | object => simp [accept]
  | text t =>
    rw [accept_text, Literal.text.injEq]
    by_cases ht : t = ""
    · rw [if_pos ht]
      constructor
      · intro h
        cases h
      · rintro ⟨rfl, hne, -⟩
        exact absurd ht hne
    · rw [if_neg ht]
      constructor
      · intro h
        cases hc : checkTemplate ⟨t, items⟩ with
        | error refusal => rw [hc] at h; cases h
        | ok u =>
          rw [hc] at h
          injection h with h
          exact ⟨h, h ▸ ht, h ▸ checkTemplate_eq_ok_iff.mp hc⟩
      · rintro ⟨rfl, -, haccepted⟩
        rw [checkTemplate_eq_ok_iff (u := ()) |>.mpr haccepted]
        rfl

/-- All that a registration can do. -/
theorem register_cases (r : Registry) (name : Literal) (items : List Item) :
    (∃ s, accept name items = .ok s ∧
      r.register name items =
        ({ r with templates := r.templates.insert s items, cache := r.cache.erase s }, .ok ())) ∨
    ∃ refusal, accept name items = .error refusal ∧ r.register name items = (r, .error refusal) := by
  unfold register
  cases h : accept name items with
  | ok s => exact .inl ⟨s, rfl, rfl⟩
  | error refusal => exact .inr ⟨refusal, rfl, rfl⟩

/-! ### What a call leaves as it is -/

theorem register_caching (r : Registry) (name : Literal) (items : List Item) :
    (r.register name items).1.caching = r.caching := by
  rcases r.register_cases name items with ⟨s, -, h⟩ | ⟨refusal, -, h⟩ <;> rw [h]

theorem register_counters (r : Registry) (name : Literal) (items : List Item) :
    (r.register name items).1.hits = r.hits ∧ (r.register name items).1.compilations = r.compilations := by
  rcases r.register_cases name items with ⟨s, -, h⟩ | ⟨refusal, -, h⟩ <;> rw [h] <;> exact ⟨rfl, rfl⟩

theorem register_of_error {name : Literal} {refusal : Refusal}
    (h : (r.register name items).2 = .error refusal) : (r.register name items).1 = r := by
  rcases r.register_cases name items with ⟨s, -, hr⟩ | ⟨refusal', -, hr⟩ <;> rw [hr] at h ⊢
  cases h

theorem compile_of_error {refusal : Refusal} (h : (r.compile name).2 = .error refusal) : (r.compile name).1 = r := by
  unfold compile at h ⊢
  split at h <;> first | rfl | cases h

theorem compile_caching (r : Registry) (name : String) : (r.compile name).1.caching = r.caching := by
  unfold compile
  split <;> rfl

theorem compile_templates (r : Registry) (name : String) : (r.compile name).1.templates = r.templates := by
  unfold compile
  split <;> rfl

theorem names_compile (r : Registry) (name : String) : (r.compile name).1.names = r.names := by
  rw [names, names, compile_templates]

theorem mem_names : name ∈ r.names ↔ (r.templates[name]?).isSome := by
  rw [names, Std.TreeMap.mem_keys, Std.TreeMap.mem_iff_isSome_getElem?]

/-! ### Sound registries -/

theorem getElem?_insert {β : Type} (t : Std.TreeMap String β) (key n : String) (v : β) :
    (t.insert key v)[n]? = if key = n then some v else t[n]? := by
  simp [Std.TreeMap.getElem?_insert]

theorem getElem?_erase {β : Type} (t : Std.TreeMap String β) (key n : String) :
    (t.erase key)[n]? = if key = n then none else t[n]? := by
  simp [Std.TreeMap.getElem?_erase]

/-- The registry holds accepted templates under names that are not empty, and its cache, if it has one, holds the
programs of templates under their own names. -/
structure Sound (r : Registry) : Prop where
  template {name : String} {items : List Item} :
    r.templates[name]? = some items → name ≠ "" ∧ (⟨name, items⟩ : Program).IsAccepted
  cached {name : String} {p : Program} :
    r.cache[name]? = some p → r.caching = true ∧ p.name = name ∧ r.templates[name]? = some p.items

theorem sound_empty (caching : Bool) : (empty caching).Sound where
  template h := by simp [empty] at h
  cached h := by simp [empty] at h

namespace Sound

theorem program_of_cached (hr : r.Sound) {p : Program} (h : r.cache[name]? = some p)
    (hitems : r.templates[name]? = some items) : p = ⟨name, items⟩ := by
  obtain ⟨-, hname, htemplate⟩ := hr.cached h
  rw [hitems] at htemplate
  obtain ⟨pname, pitems⟩ := p
  obtain rfl : pname = name := hname
  obtain rfl : items = pitems := Option.some.inj htemplate
  rfl

/-- All that compiling a name can do: the name is not registered, or its program is in the cache, or the program is
built. -/
theorem compile_cases (hr : r.Sound) (name : String) :
    (r.templates[name]? = none ∧ r.compile name = (r, .error (.unknownProgram name r.names))) ∨
    ∃ items, r.templates[name]? = some items ∧
      ((name ∈ r.cache ∧ r.find name = .ok (⟨name, items⟩, .cache) ∧
          r.compile name = ({ r with hits := r.hits + 1 }, .ok ⟨name, items⟩)) ∨
        (name ∉ r.cache ∧ r.find name = .ok (⟨name, items⟩, .template) ∧
          r.compile name =
            ({ r with
                compilations := r.compilations + 1
                cache := if r.caching then r.cache.insert name ⟨name, items⟩ else r.cache }, .ok ⟨name, items⟩))) := by
  cases hc : r.cache[name]? with
  | some p =>
    obtain ⟨hcaching, -, htemplate⟩ := hr.cached hc
    have hfind : r.find name = .ok (⟨name, p.items⟩, .cache) := by
      simp only [find, hcaching, ↓reduceIte, hc, ← hr.program_of_cached hc htemplate]
    refine .inr ⟨p.items, htemplate, .inl ⟨?_, hfind, ?_⟩⟩
    · rw [Std.TreeMap.mem_iff_isSome_getElem?, hc]
      rfl
    · simp only [compile, hfind]
  | none =>
    have hnone : (if r.caching then r.cache[name]? else none) = none := by
      rw [hc, ite_self]
    cases ht : r.templates[name]? with
    | none =>
      refine .inl ⟨rfl, ?_⟩
      simp only [compile, find, hnone, ht]
    | some items =>
      have hcheck : checkTemplate ⟨name, items⟩ = .ok () := checkTemplate_eq_ok_iff.mpr (hr.template ht).2
      have hfind : r.find name = .ok (⟨name, items⟩, .template) := by
        simp only [find, hnone, ht, hcheck, Except.map]
      refine .inr ⟨items, rfl, .inr ⟨?_, hfind, ?_⟩⟩
      · rw [Std.TreeMap.mem_iff_isSome_getElem?, hc]
        simp
      · simp only [compile, hfind]

/-- A name is compiled to the program of its template, whatever was compiled before. -/
theorem compile_snd (hr : r.Sound) (name : String) :
    (r.compile name).2 =
      match r.templates[name]? with
      | some items => .ok ⟨name, items⟩
      | none => .error (.unknownProgram name r.names) := by
  rcases hr.compile_cases name with ⟨ht, h⟩ | ⟨items, ht, ⟨-, -, h⟩ | ⟨-, -, h⟩⟩ <;> rw [h, ht]

theorem compile_of_not_mem (hr : r.Sound) (hname : name ∉ r.names) :
    r.compile name = (r, .error (.unknownProgram name r.names)) := by
  rcases hr.compile_cases name with ⟨-, h⟩ | ⟨items, hitems, -⟩
  · exact h
  · exact absurd (mem_names.mpr (hitems ▸ rfl)) hname

theorem register (hr : r.Sound) (name : Literal) (items : List Item) : (r.register name items).1.Sound := by
  rcases r.register_cases name items with ⟨s, hs, h⟩ | ⟨refusal, -, h⟩ <;> rw [h]
  · obtain ⟨-, hne, haccepted⟩ := accept_eq_ok_iff.mp hs
    constructor
    · intro n is hn
      rw [getElem?_insert] at hn
      by_cases heq : s = n
      · rw [if_pos heq] at hn
        obtain rfl := heq
        obtain rfl := Option.some.inj hn
        exact ⟨hne, haccepted⟩
      · rw [if_neg heq] at hn
        exact hr.template hn
    · -- the program under the new name is gone from the cache, and the templates of the others are as they were
      intro n p hn
      rw [getElem?_erase] at hn
      by_cases heq : s = n
      · rw [if_pos heq] at hn
        cases hn
      · rw [if_neg heq] at hn
        obtain ⟨hcaching, hname, htemplate⟩ := hr.cached hn
        refine ⟨hcaching, hname, ?_⟩
        rw [getElem?_insert, if_neg heq]
        exact htemplate
  · exact hr

theorem compile (hr : r.Sound) (name : String) : (r.compile name).1.Sound := by
  rcases hr.compile_cases name with ⟨-, h⟩ | ⟨items, ht, ⟨-, -, h⟩ | ⟨-, -, h⟩⟩ <;> rw [h]
  · exact hr
  · exact ⟨hr.template, hr.cached⟩
  · refine ⟨hr.template, fun {n p} hn => ?_⟩
    by_cases hcaching : r.caching = true
    · simp only [hcaching, ↓reduceIte, getElem?_insert] at hn
      by_cases heq : name = n
      · rw [if_pos heq] at hn
        obtain rfl := heq
        obtain rfl := Option.some.inj hn
        exact ⟨hcaching, rfl, ht⟩
      · rw [if_neg heq] at hn
        exact hr.cached hn
    · simp only [hcaching] at hn
      exact hr.cached hn

theorem clearCache (hr : r.Sound) : r.clearCache.Sound where
  template := hr.template
  cached h := by simp [Registry.clearCache] at h

end Sound

/-! ### The construction of a registry -/

theorem registerAll_cons_ok {name : Literal} {s : String} (h : accept name items = .ok s)
    (rest : List (Literal × List Item)) :
    (r.registerAll ((name, items) :: rest)).1 = ((r.register name items).1.registerAll rest).1 := by
  simp only [registerAll, register, h]

theorem registerAll_cons_error {name : Literal} {refusal : Refusal} (h : accept name items = .error refusal)
    (rest : List (Literal × List Item)) : (r.registerAll ((name, items) :: rest)).1 = .error refusal := by
  simp only [registerAll, register, h]

/-- What every registration keeps, the construction of a registry keeps. -/
theorem registerAll_invariant {P : Registry → Prop} (hP : ∀ r name items, P r → P (r.register name items).1)
    {r r' : Registry} {pairs : List (Literal × List Item)} (hr : P r) (h : (r.registerAll pairs).1 = .ok r') :
    P r' := by
  induction pairs generalizing r with
  | nil =>
    injection h with h
    exact h ▸ hr
  | cons pair rest ih =>
    obtain ⟨name, items⟩ := pair
    cases ha : accept name items with
    | ok s =>
      rw [registerAll_cons_ok ha] at h
      exact ih (hP r name items hr) h
    | error refusal =>
      rw [registerAll_cons_error ha] at h
      cases h

theorem sound_of_ofPairs {caching : Bool} {pairs : List (Literal × List Item)} (h : (ofPairs caching pairs).1 = .ok r) :
    r.Sound :=
  registerAll_invariant (fun _ name items hr => hr.register name items) (sound_empty caching) h

/-! ### What is registered at first -/

private theorem merge_append_singleton {α β : Type} [BEq α] (pairs : List (α × β)) (key : α) (value : β) :
    merge (pairs ++ [(key, value)]) = assign key value (merge pairs) := by
  rw [merge, merge, List.foldl_append]
  rfl

section

variable {α β : Type} [BEq α] [LawfulBEq α]

private theorem map_fst_assign (key : α) (value : β) (pairs : List (α × β)) :
    (assign key value pairs).map Prod.fst =
      if key ∈ pairs.map Prod.fst then pairs.map Prod.fst else pairs.map Prod.fst ++ [key] := by
  induction pairs with
  | nil => simp [assign]
  | cons pair rest ih =>
    obtain ⟨k, v⟩ := pair
    by_cases hk : k = key
    · simp [assign, hk]
    · rw [assign, if_neg (by simpa using hk), List.map_cons, ih]
      simp only [List.map_cons, List.mem_cons, Ne.symm hk, false_or]
      split <;> rfl

private theorem assign_of_notMem {key : α} (value : β) {pairs : List (α × β)} (h : key ∉ pairs.map Prod.fst) :
    assign key value pairs = pairs ++ [(key, value)] := by
  induction pairs with
  | nil => rfl
  | cons pair rest ih =>
    obtain ⟨k, v⟩ := pair
    rw [List.map_cons, List.mem_cons, not_or] at h
    rw [assign, if_neg (by simpa using Ne.symm h.1), ih h.2, List.cons_append]

private theorem lookup_assign (key k : α) (value : β) (pairs : List (α × β)) :
    (assign key value pairs).lookup k = if k == key then some value else pairs.lookup k := by
  induction pairs with
  | nil => cases hk : k == key <;> simp [assign, List.lookup_cons, hk]
  | cons pair rest ih =>
    obtain ⟨k', v⟩ := pair
    by_cases hk' : k' = key
    · subst hk'
      rw [assign, if_pos (BEq.rfl), List.lookup_cons, List.lookup_cons]
      cases k == k' <;> rfl
    · rw [assign, if_neg (by simpa using hk'), List.lookup_cons, List.lookup_cons, ih]
      cases hk : k == k' with
      | false => rfl
      | true =>
        obtain rfl := eq_of_beq hk
        simp [hk']

/-- Merged pairs have distinct names. -/
theorem nodup_merge (pairs : List (α × β)) : ((merge pairs).map Prod.fst).Nodup := by
  induction pairs using List.reverseRecOn with
  | nil => exact List.nodup_nil
  | append_singleton pairs pair ih =>
    obtain ⟨key, value⟩ := pair
    rw [merge_append_singleton, map_fst_assign]
    split
    · exact ih
    · next hkey =>
      refine List.nodup_append.mpr ⟨ih, by simp, fun a ha b hb heq => hkey ?_⟩
      rw [← List.mem_singleton.mp hb, ← heq]
      exact ha

/-- Of the pairs with one name, merging keeps the last one. -/
theorem lookup_merge (pairs : List (α × β)) (key : α) : (merge pairs).lookup key = pairs.reverse.lookup key := by
  induction pairs using List.reverseRecOn with
  | nil => rfl
  | append_singleton pairs pair ih =>
    obtain ⟨k, value⟩ := pair
    rw [merge_append_singleton, lookup_assign, ih, List.reverse_append, List.reverse_singleton,
      List.singleton_append, List.lookup_cons]
    cases key == k <;> rfl

/-- Pairs with distinct names, such as those of a mapping, are left as they are. -/
theorem merge_eq_self {pairs : List (α × β)} (h : (pairs.map Prod.fst).Nodup) : merge pairs = pairs := by
  induction pairs using List.reverseRecOn with
  | nil => rfl
  | append_singleton pairs pair ih =>
    obtain ⟨key, value⟩ := pair
    rw [List.map_append, List.nodup_append] at h
    obtain ⟨hnodup, -, hdisjoint⟩ := h
    have hkey : key ∉ pairs.map Prod.fst := fun hmem => hdisjoint key hmem key (by simp) rfl
    rw [merge_append_singleton, ih hnodup, assign_of_notMem value hkey]

end

private theorem templates_register {s : String} {name : Literal} (h : accept name items = .ok s) (n : String) :
    (r.register name items).1.templates[n]? = if s = n then some items else r.templates[n]? := by
  simp only [register, h, getElem?_insert]

/-- Registering pairs with distinct names puts every template under its name, and changes nothing else. -/
theorem templates_of_registerAll {r' : Registry} {pairs : List (Literal × List Item)}
    (hnodup : (pairs.map Prod.fst).Nodup) (h : (r.registerAll pairs).1 = .ok r') (n : String) :
    r'.templates[n]? = (pairs.lookup (.text n)).or r.templates[n]? := by
  induction pairs generalizing r with
  | nil =>
    injection h with h
    rw [h]
    rfl
  | cons pair rest ih =>
    obtain ⟨name, items⟩ := pair
    obtain ⟨hname, hrest⟩ := List.nodup_cons.mp hnodup
    cases ha : accept name items with
    | error refusal =>
      rw [registerAll_cons_error ha] at h
      cases h
    | ok s =>
      rw [registerAll_cons_ok ha] at h
      obtain ⟨rfl, -, -⟩ := accept_eq_ok_iff.mp ha
      rw [ih hrest h, templates_register ha, List.lookup_cons]
      by_cases hs : s = n
      · -- the name does not come up again
        subst hs
        have hnone : rest.lookup (.text s) = none := by
          refine List.lookup_eq_none_iff.mpr fun pair hpair => bne_iff_ne.mpr fun heq => hname ?_
          exact List.mem_map.mpr ⟨pair, hpair, heq.symm⟩
        rw [hnone, if_pos rfl, BEq.rfl]
        rfl
      · rw [if_neg hs, beq_eq_false_iff_ne.mpr fun heq => hs (Literal.text.inj heq).symm]

/-- A new registry holds, under every name that is given, the last template that is given for it, and nothing else. -/
theorem templates_of_ofPairs {caching : Bool} {pairs : List (Literal × List Item)}
    (h : (ofPairs caching pairs).1 = .ok r) (n : String) :
    r.templates[n]? = pairs.reverse.lookup (.text n) := by
  have hempty : (empty caching).templates[n]? = none := by simp [empty]
  rw [templates_of_registerAll (nodup_merge pairs) h, hempty, Option.or_none, lookup_merge]

/-- A new registry holds all entries of the mapping that it is given. -/
theorem templates_of_mapping {caching : Bool} {pairs : List (Literal × List Item)}
    (h : (ofPairs caching pairs).1 = .ok r) (hnodup : (pairs.map Prod.fst).Nodup) (n : String) :
    r.templates[n]? = pairs.lookup (.text n) := by
  rw [templates_of_ofPairs h, ← lookup_merge, merge_eq_self hnodup]

end Registry

end StackMachine
