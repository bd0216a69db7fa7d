import Mathlib
import CodeReference.Proofs.Registry.History
import CodeReference.Proofs.Text.Lowercase

/-!
Extensions that settings give to a language. A lookup asks for an extension in lower case and takes
the keys of the settings as they are, so an entry counts only if its key is in lower case; then it
counts for every spelling.
-/
namespace CodeReference

variable {r : Registry} {settings : Settings} {key extension : Text} {language : Language}
  {s : Strategy}

namespace Settings

/-- Settings that say nothing about an extension, and what they said about others. -/
def withoutExtra (settings : Settings) (key : Text) : Settings :=
  { settings with extraExtensions := settings.extraExtensions.filter fun m => m.1 != key }

theorem extraLanguage?_withoutExtra (settings : Settings) (h : extension ≠ key) :
    (settings.withoutExtra key).extraLanguage? extension = settings.extraLanguage? extension := by
  unfold extraLanguage? withoutExtra
  generalize settings.extraExtensions = extras
  dsimp only
  induction extras with
  | nil => rfl
  | cons m extras ih =>
      obtain ⟨k, l⟩ := m
      by_cases hk : k = key
      · rw [List.filter_cons_of_neg (by simpa using hk), ih,
          Registry.lookup_cons_of_ne (fun heq => h (heq.trans hk))]
      · rw [List.filter_cons_of_pos (by simpa using hk)]
        by_cases hextension : extension = k
        · simp [hextension]
        · rw [Registry.lookup_cons_of_ne hextension, Registry.lookup_cons_of_ne hextension, ih]

theorem extraLanguage?_eq_none_iff :
    settings.extraLanguage? key = none ↔ ∀ m ∈ settings.extraExtensions, m.1 ≠ key := by
  rw [extraLanguage?, List.lookup_eq_none_iff]
  simp only [bne_iff_ne, ne_comm]

end Settings

namespace Registry

theorem get?_of_not_mem (h : Text.lowercase extension ∉ r.map (·.1)) (settings : Settings) :
    r.get? extension (some settings) =
      (settings.extraLanguage? (Text.lowercase extension)).bind r.ofLanguage? := by
  rw [get?_some, get?_none, lookup_eq_none_iff_not_mem.2 h, Option.none_or]

/-- A key that is not in lower case is never asked for. -/
theorem get?_withoutExtra (r : Registry) (settings : Settings) (h : Text.lowercase key ≠ key)
    (extension : Text) :
    r.get? extension (some (settings.withoutExtra key)) = r.get? extension (some settings) := by
  have hkey : Text.lowercase extension ≠ key := by
    rintro rfl
    exact h (Text.lowercase_lowercase extension)
  rw [get?_some, get?_some, settings.extraLanguage?_withoutExtra hkey]

/-- An extension that is not registered and that settings give to a language of some strategy: if it
is in lower case, each spelling of it finds the first strategy of that language. If it is not, the
settings might as well not name it, and no spelling finds anything unless they name its lower case
too. -/
theorem get?_of_extraLanguage? (r : Registry) (settings : Settings)
    (hextra : settings.extraLanguage? key = some language)
    (hkey : Text.lowercase key ∉ r.map (·.1)) (hlanguage : ∃ s ∈ r.map (·.2), s.language = language) :
    ∃ s, (r.map (·.2)).find? (fun s => s.language == language) = some s ∧
      (Text.lowercase key = key → ∀ extension, Text.lowercase extension = key →
        r.get? extension (some settings) = some s) ∧
      (Text.lowercase key ≠ key →
        (∀ extension, r.get? extension (some (settings.withoutExtra key)) =
          r.get? extension (some settings)) ∧
        ((∀ m ∈ settings.extraExtensions, m.1 ≠ Text.lowercase key) →
          ∀ extension, Text.lowercase extension = Text.lowercase key →
            r.get? extension (some settings) = none)) := by
  obtain ⟨t, ht, htlanguage⟩ := hlanguage
  have hsome : ((r.map (·.2)).find? fun s => s.language == language).isSome = true := by
    rw [List.find?_isSome]
    exact ⟨t, ht, beq_iff_eq.2 htlanguage⟩
  obtain ⟨s, hs⟩ := Option.isSome_iff_exists.1 hsome
  refine ⟨s, hs, fun hlower extension hextension => ?_, fun hlower =>
    ⟨get?_withoutExtra r settings hlower, fun hnone extension hextension => ?_⟩⟩
  · rw [hlower] at hkey
    rw [get?_of_not_mem (by rwa [hextension]), hextension, hextra, Option.bind_some, ofLanguage?_eq,
      hs]
  · rw [get?_of_not_mem (by rwa [hextension]), hextension, Settings.extraLanguage?_eq_none_iff.2 hnone,
      Option.bind_none]

/-- Settings with one further extension, as it was written. -/
def sampleExtra (key : Text) : Settings := { extraExtensions := [(key, .javascript)] }

theorem get?_of_extraLanguage?_spelling :
    (sampleExtra ".mjs".toList).extraLanguage? ".mjs".toList = some .javascript ∧
      standard.get? ".Mjs".toList (some (sampleExtra ".mjs".toList)) = some .ofScriptTree := by
  have hextra : (sampleExtra ".mjs".toList).extraLanguage? ".mjs".toList = some .javascript := by
    decide
  obtain ⟨s, hs, hfound, -⟩ := get?_of_extraLanguage? standard (sampleExtra ".mjs".toList) hextra
    (by decide +kernel) ⟨.ofScriptTree, by decide +kernel, rfl⟩
  refine ⟨hextra, ?_⟩
  rw [hfound (by decide +kernel) ".Mjs".toList (by decide +kernel), ← hs]
  decide +kernel

/-- A key with capitals is not found, not even by its own spelling. -/
theorem not_get?_of_extraLanguage?_capitals : ¬ ∀ (r : Registry) (settings : Settings) (key : Text)
    (language : Language), settings.extraLanguage? key = some language →
      Text.lowercase key ∉ r.map (·.1) → (∃ s ∈ r.map (·.2), s.language = language) →
      r.get? key (some settings) = (r.map (·.2)).find? fun s => s.language == language := by
  intro h
  have hcapitals := h standard (sampleExtra ".MJS".toList) ".MJS".toList .javascript (by decide)
    (by decide +kernel) ⟨.ofScriptTree, by decide +kernel, rfl⟩
  revert hcapitals
  decide +kernel

end Registry
end CodeReference
