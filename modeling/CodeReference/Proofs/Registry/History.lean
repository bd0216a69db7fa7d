import Mathlib
import CodeReference.Proofs.Lists
import CodeReference.Registry

/-!
A registry in use. Strategies are defined and extensions are looked up, in any order. Whatever was
done, the registry is what the history of its registrations says: its keys are in the order in which
they came first, and each has the strategy that came for it last.
-/
namespace CodeReference

/-- The strategy that a definition registers; none if it is abstract or refused. -/
def Definition.strategy? (d : Definition) : Option Strategy :=
  (Language.ofName? d.language).bind fun language =>
    if d.isAbstract || d.extensions.isEmpty then none
    else some ⟨d.name, language, d.extensions, .fixed d.labels⟩

namespace Registry

/-! ## Actions and their history -/

inductive Action where
  | define (d : Definition)
  | lookup (extension : Text) (settings : Option Settings)

inductive Reply where
  | defined
  | refused (e : DefinitionError)
  | found (s? : Option Strategy)

/-- The reply to an action, and the registry after it. -/
def perform (r : Registry) : Action → Reply × Registry
  | .define d =>
    match r.define d with
    | .ok r' => (.defined, r')
    | .error e => (.refused e, r)
  | .lookup extension settings => (.found (r.get? extension settings), r)

def run (r : Registry) (actions : List Action) : Registry :=
  actions.foldl (fun r a => (r.perform a).2) r

/-- Keys and the strategies they were given, in the order in which this happened. -/
abbrev History := List (Text × Strategy)

/-- Each extension of a strategy gives it a key, in lower case. -/
def registrations (s : Strategy) : History := s.extensions.map fun e => (Text.lowercase e, s)

def Action.strategy? : Action → Option Strategy
  | define d => d.strategy?
  | lookup _ _ => none

/-- All that was registered after actions on the built-in registry. -/
def historyOf (actions : List Action) : History :=
  ([Strategy.ofOutline, Strategy.ofTypedTree, Strategy.ofScriptTree, Strategy.ofMarkup] ++
    actions.filterMap Action.strategy?).flatMap registrations

/-- A strategy came last among those that a key was given. -/
def Latest (h : History) (key : Text) (s : Strategy) : Prop :=
  ∃ before after, h = before ++ (key, s) :: after ∧ ∀ m ∈ after, m.1 ≠ key

/-! ## One registration -/

variable {r : Registry} {h : History} {s : Strategy} {key extension : Text}

theorem any_key_iff : (r.any fun m => m.1 == extension) = true ↔ extension ∈ r.map (·.1) := by
  simp only [List.any_eq_true, beq_iff_eq, List.mem_map]

theorem lookup_cons_of_ne {β : Type} (h : key ≠ extension) (b : β) (l : List (Text × β)) :
    List.lookup key ((extension, b) :: l) = l.lookup key := by
  rw [List.lookup_cons, beq_eq_false_iff_ne.2 h]

theorem lookup_eq_none_iff_not_mem : r.lookup key = none ↔ key ∉ r.map (·.1) := by
  induction r with
  | nil => simp
  | cons m r ih =>
      obtain ⟨k, t⟩ := m
      by_cases hkey : key = k
      · simp [hkey]
      · rw [lookup_cons_of_ne hkey, List.map_cons, List.mem_cons, not_or]
        simp only [hkey, not_false_eq_true, true_and, ih]

theorem keys_set (r : Registry) (extension : Text) (s : Strategy) :
    (r.set extension s).map (·.1) =
      if extension ∈ r.map (·.1) then r.map (·.1) else r.map (·.1) ++ [extension] := by
  unfold set
  by_cases hmem : extension ∈ r.map (·.1)
  · rw [if_pos (any_key_iff.2 hmem), if_pos hmem, List.map_map]
    refine List.map_congr_left fun m _ => ?_
    by_cases hm : m.1 = extension
    · simp [hm]
    · simp [hm]
  · rw [if_neg (mt any_key_iff.1 hmem), if_neg hmem, List.map_append]
    rfl

theorem lookup_map_replace (r : Registry) (extension key : Text) (s : Strategy) :
    (r.map fun m => if m.1 == extension then (extension, s) else m).lookup key =
      if key = extension then (r.lookup key).map fun _ => s else r.lookup key := by
  have hmap : (r.map fun m => if m.1 == extension then (extension, s) else m) =
      r.map fun m => (m.1, if m.1 = extension then s else m.2) := by
    refine List.map_congr_left fun m _ => ?_
    by_cases hm : m.1 = extension
    · simp [hm]
    · simp [hm]
  rw [hmap, lookup_map_snd fun k t => if k = extension then s else t]
  by_cases hkey : key = extension
  · simp [hkey]
  · simp [hkey]

theorem lookup_set (r : Registry) (extension key : Text) (s : Strategy) :
    (r.set extension s).lookup key = if key = extension then some s else r.lookup key := by
  unfold set
  by_cases hmem : extension ∈ r.map (·.1)
  · rw [if_pos (any_key_iff.2 hmem), lookup_map_replace]
    by_cases hkey : key = extension
    · obtain ⟨t, ht⟩ := Option.ne_none_iff_exists'.1 (mt lookup_eq_none_iff_not_mem.1 (not_not.2 hmem))
      simp [hkey, ht]
    · simp [hkey]
  · rw [if_neg (mt any_key_iff.1 hmem), List.lookup_append]
    by_cases hkey : key = extension
    · simp [hkey, lookup_eq_none_iff_not_mem.2 hmem]
    · rw [lookup_cons_of_ne hkey, List.lookup_nil, Option.or_none, if_neg hkey]

theorem keys_isPrefix_register (r : Registry) (s : Strategy) :
    r.map (·.1) <+: (r.register s).map (·.1) := by
  unfold register
  generalize s.extensions = extensions
  induction extensions generalizing r with
  | nil => exact List.prefix_rfl
  | cons e extensions ih =>
      refine List.IsPrefix.trans ?_ (ih _)
      rw [keys_set]
      split
      · exact List.prefix_rfl
      · exact List.prefix_append _ _

/-! ## Registries that follow a history -/

/-- The keys of a registry are in the order in which a history names them first, and each has the
strategy that it is given last. -/
structure Follows (r : Registry) (h : History) : Prop where
  keys : r.map (·.1) = (h.map (·.1)).eraseDups
  lookup : ∀ key, r.lookup key = h.reverse.lookup key

theorem Follows.set (hf : Follows r h) (extension : Text) (s : Strategy) :
    Follows (r.set extension s) (h ++ [(extension, s)]) where
  keys := by
    rw [keys_set, hf.keys, List.map_append, List.map_singleton, eraseDups_concat]
    simp only [List.mem_eraseDups]
  lookup key := by
    rw [lookup_set, hf.lookup, List.reverse_concat]
    by_cases hkey : key = extension
    · simp [hkey]
    · rw [if_neg hkey, lookup_cons_of_ne hkey]

theorem Follows.register (hf : Follows r h) (s : Strategy) :
    Follows (r.register s) (h ++ registrations s) := by
  unfold Registry.register registrations
  generalize s.extensions = extensions
  induction extensions generalizing r h with
  | nil => rwa [List.map_nil, List.append_nil]
  | cons e extensions ih =>
      rw [List.foldl_cons, List.map_cons, List.append_cons]
      exact ih (hf.set (Text.lowercase e) s)

theorem Follows.foldl_register (hf : Follows r h) (strategies : List Strategy) :
    Follows (strategies.foldl Registry.register r) (h ++ strategies.flatMap registrations) := by
  induction strategies generalizing r h with
  | nil => rwa [List.flatMap_nil, List.append_nil]
  | cons s strategies ih =>
      rw [List.foldl_cons, List.flatMap_cons, ← List.append_assoc]
      exact ih (hf.register s)

theorem follows_nil : Follows [] [] := ⟨rfl, fun _ => rfl⟩

/-! ## Actions -/

/-- An action registers its strategy, if it has one, and does nothing else. -/
theorem snd_perform (r : Registry) (a : Action) :
    (r.perform a).2 = a.strategy?.toList.foldl register r := by
  cases a with
  | lookup extension settings => rfl
  | define d =>
      simp only [perform, define, Action.strategy?, Definition.strategy?]
      cases Language.ofName? d.language with
      | none => rfl
      | some language =>
          cases habstract : d.isAbstract with
          | true => rfl
          | false =>
              cases hempty : d.extensions.isEmpty with
              | true => rfl
              | false => rfl

theorem keys_isPrefix_perform (r : Registry) (a : Action) :
    r.map (·.1) <+: (r.perform a).2.map (·.1) := by
  rw [snd_perform]
  cases a.strategy? with
  | none => exact List.prefix_rfl
  | some s => exact keys_isPrefix_register r s

theorem snd_perform_of_isAbstract (r : Registry) {d : Definition} (hd : d.isAbstract = true) :
    (r.perform (.define d)).2 = r := by
  have hnone : d.strategy? = none := by
    cases hlanguage : Language.ofName? d.language <;> simp [Definition.strategy?, hlanguage, hd]
  rw [snd_perform, Action.strategy?, hnone]
  rfl

/-- Without an extension no strategy can be registered. -/
theorem perform_of_extensions_eq_nil (r : Registry) {d : Definition} (hd : d.isAbstract = false)
    (hnil : d.extensions = []) :
    ∃ e, r.perform (.define d) = (.refused e, r) ∧
      (Language.ofName? d.language ≠ none → e = .noExtensions d.name) := by
  cases hlanguage : Language.ofName? d.language with
  | none => exact ⟨.unknownLanguage d.language, by simp [perform, define, hlanguage], by simp⟩
  | some language =>
      exact ⟨.noExtensions d.name, by simp [perform, define, hlanguage, hd, hnil], by simp⟩

theorem run_eq (r : Registry) (actions : List Action) :
    r.run actions = (actions.filterMap Action.strategy?).foldl register r := by
  induction actions generalizing r with
  | nil => rfl
  | cons a actions ih =>
      have hrun : r.run (a :: actions) = (r.perform a).2.run actions := rfl
      rw [hrun, ih, snd_perform, List.filterMap_cons]
      cases a.strategy? with
      | none => rfl
      | some s => rfl

/-- After any actions the built-in registry follows the history of its registrations. -/
theorem follows_run (actions : List Action) : Follows (standard.run actions) (historyOf actions) := by
  rw [run_eq, standard, ← List.foldl_append]
  exact follows_nil.foldl_register _

/-! ## Lookups -/

theorem Follows.lookup_eq_some_iff (hf : Follows r h) :
    r.lookup key = some s ↔ Latest h key s := by
  rw [hf.lookup, List.lookup_eq_some_iff]
  constructor
  · rintro ⟨after, before, heq, hafter⟩
    refine ⟨before.reverse, after.reverse, ?_, fun m hm => ?_⟩
    · rw [← List.reverse_reverse h, heq]
      simp
    · exact (bne_iff_ne.1 (hafter m (List.mem_reverse.1 hm))).symm
  · rintro ⟨before, after, rfl, hafter⟩
    refine ⟨after.reverse, before.reverse, by simp, fun m hm => ?_⟩
    exact bne_iff_ne.2 (hafter m (List.mem_reverse.1 hm)).symm

theorem Follows.lookup_eq_none_iff (hf : Follows r h) :
    r.lookup key = none ↔ key ∉ h.map (·.1) := by
  rw [lookup_eq_none_iff_not_mem, hf.keys, List.mem_eraseDups]

/-- A registry that follows a history has each key once. -/
theorem Follows.mem_iff (hf : Follows r h) : (key, s) ∈ r ↔ Latest h key s := by
  rw [← hf.lookup_eq_some_iff]
  constructor
  · intro hmem
    obtain ⟨before, after, rfl⟩ := List.append_of_mem hmem
    have hnodup := nodup_eraseDups (h.map (·.1))
    rw [← hf.keys, List.map_append, List.map_cons, List.nodup_append] at hnodup
    have hbefore : List.lookup key before = none :=
      lookup_eq_none_iff_not_mem.2 fun hk => hnodup.2.2 _ hk _ List.mem_cons_self rfl
    simp [List.lookup_append, hbefore]
  · intro hlookup
    obtain ⟨before, after, rfl, -⟩ := List.lookup_eq_some_iff.1 hlookup
    simp

theorem get?_none (r : Registry) (extension : Text) :
    r.get? extension none = r.lookup (Text.lowercase extension) := by
  unfold get?
  cases hlookup : r.lookup (Text.lowercase extension) <;> simp [hlookup]

theorem get?_some (r : Registry) (extension : Text) (settings : Settings) :
    r.get? extension (some settings) = (r.get? extension none).or
      ((settings.extraLanguage? (Text.lowercase extension)).bind r.ofLanguage?) := by
  rw [get?_none]
  unfold get?
  cases hlookup : r.lookup (Text.lowercase extension) <;> simp [hlookup]

theorem ofLanguage?_eq (r : Registry) (language : Language) :
    r.ofLanguage? language = (r.map (·.2)).find? fun s => s.language == language := by
  rw [ofLanguage?, List.find?_map]
  rfl

/-- After any definitions and lookups the keys of the registry are in the order in which they came
first, and each has the strategy that came for it last. A definition that is refused, an abstract
one and a lookup change nothing. Settings matter only to an extension that is not registered: the
first strategy in the registry of the language they give it is found. -/
theorem run_standard (actions : List Action) :
    let r := standard.run actions
    let h := historyOf actions
    (r.map (·.1) = (h.map (·.1)).eraseDups ∧ ∀ a, r.map (·.1) <+: (r.perform a).2.map (·.1)) ∧
      (∀ key s, (key, s) ∈ r ↔ Latest h key s) ∧
      (∀ extension,
        (∀ s, r.get? extension none = some s ↔ Latest h (Text.lowercase extension) s) ∧
          (r.get? extension none = none ↔ Text.lowercase extension ∉ h.map (·.1))) ∧
      (∀ d, d.isAbstract = false → d.extensions = [] →
        ∃ e, r.perform (.define d) = (.refused e, r) ∧
          (Language.ofName? d.language ≠ none → e = .noExtensions d.name)) ∧
      (∀ d, d.isAbstract = true → (r.perform (.define d)).2 = r) ∧
      (∀ extension settings,
        r.perform (.lookup extension settings) = (.found (r.get? extension settings), r)) ∧
      ∀ extension settings,
        (∀ s, r.get? extension none = some s → r.get? extension (some settings) = some s) ∧
          (r.get? extension none = none → r.get? extension (some settings) =
            (settings.extraLanguage? (Text.lowercase extension)).bind fun language =>
              (r.map (·.2)).find? fun s => s.language == language) := by
  intro r h
  have hf : Follows r h := follows_run actions
  refine ⟨⟨hf.keys, keys_isPrefix_perform r⟩, fun key s => hf.mem_iff, fun extension => ⟨fun s => ?_, ?_⟩,
    fun d => perform_of_extensions_eq_nil r, fun d => snd_perform_of_isAbstract r, fun _ _ => rfl,
    fun extension settings => ⟨fun s hs => ?_, fun hnone => ?_⟩⟩
  · rw [get?_none]
    exact hf.lookup_eq_some_iff
  · rw [get?_none]
    exact hf.lookup_eq_none_iff
  · rw [get?_some, hs, Option.some_or]
  · rw [get?_some, hnone, Option.none_or]
    exact Option.bind_congr fun language _ => ofLanguage?_eq r language

def sampleStrategy : Strategy := ⟨"Stub".toList, .python, [".PY".toList, ".pyi".toList], .fixed []⟩

/-- One strategy that takes the place of a built-in one, one that is abstract and one without
extensions. -/
def sampleActions : List Action :=
  [.define ⟨"Stub".toList, "python".toList, [".PY".toList, ".pyi".toList], false, []⟩,
    .define ⟨"Base".toList, "html".toList, [], true, []⟩, .lookup ".pyi".toList none,
    .define ⟨"Empty".toList, "html".toList, [], false, []⟩]

theorem run_standard_sampleActions :
    (standard.run sampleActions).map (·.1) =
        [".py", ".ts", ".tsx", ".js", ".jsx", ".html", ".htm", ".pyi"].map (·.toList) ∧
      (standard.run sampleActions).get? ".Py".toList none = some sampleStrategy := by
  obtain ⟨⟨hkeys, -⟩, -, hget, -⟩ := run_standard sampleActions
  refine ⟨hkeys.trans (by decide +kernel), ((hget ".Py".toList).1 sampleStrategy).2 ?_⟩
  exact ⟨(historyOf sampleActions).take 7, [(".pyi".toList, sampleStrategy)], by decide +kernel,
    by decide +kernel⟩

end Registry
end CodeReference
