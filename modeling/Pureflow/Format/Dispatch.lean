import Pureflow.Format.Loading
import Pureflow.Lib.Splits

/-!
Where a registry sends a URI.

Plain paths go to the file system and so, it is written, do `file://` URIs: the file source
strips the scheme for them. The registry never asks it to. Every URI with a scheme goes to the
registered sources, so a `file://` URI is of an unknown scheme unless the application registers
a source for files itself.
-/

namespace Pureflow.Format

open Pureflow.Rules Pureflow.Lib

/-- The characters between a scheme and the rest of a URI. -/
def schemeSep : List Char := "://".toList

/-- A path without a scheme. -/
def IsPlain (path : String) : Prop := ¬ schemeSep <:+: path.toList

instance (path : String) : Decidable (IsPlain path) := inferInstanceAs (Decidable (¬ _))

section Schemes

lemma schemeSep_prefix_cons {c : Char} {rest : List Char} :
    schemeSep <+: c :: rest ↔ ['/', '/'].isPrefixOf rest ∧ c = ':' := by
  have hsep : schemeSep = ':' :: ['/', '/'] := by decide
  rw [hsep, List.cons_prefix_cons, List.isPrefixOf_iff_prefix, and_comm]
  exact and_congr_right fun _ => eq_comm

lemma go_eq_some_iff {text scheme : List Char} :
    extractScheme.go text = some scheme ↔ Before schemeSep text scheme := by
  induction text generalizing scheme with
  | nil =>
    refine iff_of_false (by simp [extractScheme.go]) fun h => ?_
    have hnil := List.prefix_nil.mp h.occurs
    simp [schemeSep] at hnil
  | cons c rest ih =>
    rw [extractScheme.go]
    by_cases hsep : schemeSep <+: c :: rest
    · rw [if_pos (schemeSep_prefix_cons.mp hsep), Option.some.injEq]
      have hbefore := before_nil hsep
      exact ⟨fun h => h ▸ hbefore, hbefore.unique⟩
    · rw [if_neg (mt schemeSep_prefix_cons.mpr hsep), Option.map_eq_some_iff, before_cons hsep]
      simp only [ih]
      exact ⟨fun ⟨b, hb, h⟩ => ⟨b, h.symm, hb⟩, fun ⟨b, h, hb⟩ => ⟨b, hb, h.symm⟩⟩

lemma go_eq_none_iff {text : List Char} :
    extractScheme.go text = none ↔ ¬ schemeSep <:+: text := by
  induction text with
  | nil => simp [extractScheme.go, schemeSep]
  | cons c rest ih =>
    rw [extractScheme.go, List.infix_cons_iff]
    by_cases hsep : schemeSep <+: c :: rest
    · rw [if_pos (schemeSep_prefix_cons.mp hsep)]
      exact iff_of_false (by simp) fun h => h (.inl hsep)
    · rw [if_neg (mt schemeSep_prefix_cons.mpr hsep), Option.map_eq_none_iff, ih]
      exact ⟨fun h => fun hor => hor.elim hsep h, fun h hin => h (.inr hin)⟩

/-- **The scheme of a URI** is what stands before its first `://`. -/
lemma extractScheme_eq_some {uri scheme : String} :
    extractScheme uri = some scheme ↔ Before schemeSep uri.toList scheme.toList := by
  rw [extractScheme, Option.map_eq_some_iff, ← go_eq_some_iff]
  constructor
  · rintro ⟨chars, hchars, rfl⟩
    rwa [String.toList_ofList]
  · intro h
    exact ⟨scheme.toList, h, String.ofList_toList⟩

lemma extractScheme_eq_none {uri : String} : extractScheme uri = none ↔ IsPlain uri := by
  rw [extractScheme, Option.map_eq_none_iff, go_eq_none_iff, IsPlain]

lemma before_file (path : String) :
    Before schemeSep ("file://" ++ path).toList "file".toList := by
  rw [← extractScheme_eq_some, extractScheme, String.toList_append]
  rfl

end Schemes

section Registries

variable {host : Host} {registry : SourceRegistry} {uri scheme : String}

/-- The first source registered for a scheme. -/
def FirstSource (registry : SourceRegistry) (scheme : String) (source : RuleSetSource) : Prop :=
  ∃ earlier later, registry.sources = earlier ++ (scheme, source) :: later ∧
    ∀ e ∈ earlier, e.1 ≠ scheme

/-- A URI of a scheme goes to the first source registered for it, or is of an unknown one. -/
def Dispatched (host : Host) (registry : SourceRegistry) (uri scheme : String) : Prop :=
  (∃ source, FirstSource registry scheme source ∧
    registry.load host uri = source.load host uri) ∨
  (∀ e ∈ registry.sources, e.1 ≠ scheme) ∧
    registry.load host uri = .error (.unknownScheme scheme)

/-- A URI is resolved as it is written: a file URI as its path is, and any other by its
scheme. -/
structure AsDocumented (host : Host) (registry : SourceRegistry) (uri : String) : Prop where
  file (path : String) : IsPlain path → uri = "file://" ++ path →
    registry.load host uri = registry.load host path
  other (scheme : String) : (¬ ∃ path, IsPlain path ∧ uri = "file://" ++ path) →
    Before schemeSep uri.toList scheme.toList → Dispatched host registry uri scheme

lemma lookup_cases (sources : List (String × RuleSetSource)) (scheme : String) :
    (∃ source earlier later, sources.lookup scheme = some source ∧
      sources = earlier ++ (scheme, source) :: later ∧ ∀ e ∈ earlier, e.1 ≠ scheme) ∨
    sources.lookup scheme = none ∧ ∀ e ∈ sources, e.1 ≠ scheme := by
  cases h : sources.lookup scheme with
  | some source =>
    obtain ⟨earlier, later, rfl, hearlier⟩ := List.lookup_eq_some_iff.mp h
    refine .inl ⟨source, earlier, later, rfl, rfl, fun e he heq => ?_⟩
    have hne := hearlier e he
    simp [heq] at hne
  | none =>
    refine .inr ⟨rfl, fun e he heq => ?_⟩
    have hne := List.lookup_eq_none_iff.mp h e he
    simp [heq] at hne

/-- **Any URI with a scheme is sent by it**, a file URI like the others. -/
theorem dispatched (h : Before schemeSep uri.toList scheme.toList) :
    Dispatched host registry uri scheme := by
  rw [← extractScheme_eq_some] at h
  rw [Dispatched, SourceRegistry.load, h]
  rcases lookup_cases registry.sources scheme with
    ⟨source, earlier, later, hlookup, hsources, hearlier⟩ | ⟨hlookup, hnone⟩
  · refine .inl ⟨source, ⟨earlier, later, hsources, hearlier⟩, ?_⟩
    simp only [hlookup]
  · refine .inr ⟨hnone, ?_⟩
    simp only [hlookup]

lemma localFs_load_ne (source : LocalFsSource) :
    source.load host uri ≠ .error (.unknownScheme scheme) := by
  intro h
  unfold LocalFsSource.load at h
  cases hexists : host.pathExists (source.resolvePath uri) with
  | false => simp [hexists, throw, throwThe, MonadExceptOf.throw, bind, Except.bind] at h
  | true =>
    cases hread : host.readToString (source.resolvePath uri) with
    | error reason => simp [hexists, hread, Except.mapError, bind, Except.bind] at h
    | ok content =>
      cases hparse : host.fromStr content <;>
        simp [hexists, hread, hparse, Except.mapError, bind, Except.bind] at h

lemma load_plain (h : IsPlain uri) :
    registry.load host uri = registry.plainSource.load host uri := by
  rw [SourceRegistry.load, extractScheme_eq_none.mpr h]

lemma load_file (hfile : ∀ e ∈ registry.sources, e.1 ≠ "file") (path : String) :
    registry.load host ("file://" ++ path) = .error (.unknownScheme "file") := by
  have hdispatched : Dispatched host registry ("file://" ++ path) "file" :=
    dispatched (before_file path)
  rcases hdispatched with ⟨source, ⟨earlier, later, hsources, -⟩, -⟩ | ⟨-, hload⟩
  · exact absurd rfl (hfile ("file", source) (by simp [hsources]))
  · exact hload

/-- **Only file URIs are not resolved as it is written**, and no file URI is. -/
theorem asDocumented_iff (host : Host) (registry : SourceRegistry)
    (hfile : ∀ e ∈ registry.sources, e.1 ≠ "file") (uri : String) :
    AsDocumented host registry uri ↔ ¬ ∃ path, IsPlain path ∧ uri = "file://" ++ path := by
  constructor
  · rintro h ⟨path, hplain, rfl⟩
    have hload := h.file path hplain rfl
    rw [load_file hfile, load_plain hplain] at hload
    exact localFs_load_ne _ hload.symm
  · intro h
    exact ⟨fun path hplain huri => absurd ⟨path, hplain, huri⟩ h,
      fun scheme _ hscheme => dispatched hscheme⟩

/-- **A file URI is not its path**, not even where no source is registered at all. -/
theorem load_file_ne : ¬ ∀ (host : Host) (registry : SourceRegistry),
    (∀ e ∈ registry.sources, e.1 ≠ "file") → ∀ uri, AsDocumented host registry uri := by
  intro hall
  have hplain : IsPlain "rules/router.json" := by decide
  have hload := (hall sampleHost ⟨[], none⟩ (by simp) _).file "rules/router.json" hplain rfl
  rw [load_file (by simp), load_plain hplain] at hload
  exact localFs_load_ne _ hload.symm

/-- A registry with a source for one scheme. -/
def builtinRegistry : SourceRegistry :=
  ⟨[("builtin", .embedded ⟨⟨"rules", .firstMatch, [], .drop, false⟩⟩)], some "rules"⟩

/-- A URI of a registered scheme is resolved as it is written. -/
theorem asDocumented_iff_plain :
    (∀ e ∈ builtinRegistry.sources, e.1 ≠ "file") ∧
      AsDocumented sampleHost builtinRegistry "builtin://router" := by
  have hfile : ∀ e ∈ builtinRegistry.sources, e.1 ≠ "file" := by
    simp [builtinRegistry]
  refine ⟨hfile, (asDocumented_iff sampleHost _ hfile _).mpr ?_⟩
  rintro ⟨path, -, huri⟩
  have hhead := congrArg (·.toList.head?) huri
  simp at hhead

end Registries

end Pureflow.Format
