import Offside.Proofs.Library.Loading
import Offside.Proofs.Unit.Rejections

/-!
# What imports are served

The modules that are gathered for a source are all that its check looks for. A file that is imported
by several paths is compiled for the first of them; the others are served the same symbols, which
then name the path in hand as where they come from.
-/

namespace Offside

namespace Library

theorem Sound.offers_of_fragment? {settings : Settings} {state : State}
    (sound : Sound settings state) {file : Path} {first : Fragment}
    (known : state.fragment? file = some first) :
    Offers settings file first ∧
      ∃ module ∈ state.compiled, module.file = file ∧ module.path = first.path := by
  obtain ⟨entry, found, rfl⟩ := Option.map_eq_some_iff.mp known
  have member := List.mem_of_find?_eq_some found
  obtain rfl : entry.1 = file := by simpa using List.find?_some found
  have offered : (entry.1, entry.2.path) ∈ state.compiled.map fun module =>
      (module.file, module.path) := sound.offered_eq ▸ List.mem_map_of_mem member
  obtain ⟨module, isModule, same⟩ := List.mem_map.mp offered
  exact ⟨sound.offers entry member, module, isModule, Prod.mk.inj same⟩

/-- A source with what its imports need is not rejected for want of a module. -/
theorem Gathered.resolves {settings : Settings} {state : State} {current : Option Path}
    {body : List Statement} {found : List Fragment}
    (gathered : Gathered settings state current (importsOf body) found) (kind : UnitKind)
    (line : Option Nat) (path : String) :
    analyze kind found body ≠ .error (.checking (.unresolvedModule path) line) := by
  intro rejected
  obtain ⟨_, wanted⟩ := Check.passes_checkUnit kind found body _ rejected
  obtain ⟨request, member, _, notMarker, lacks⟩ := wanted path rfl
  obtain ⟨fragment, isFound, isPath⟩ := gathered.complete request member notMarker
  exact lacks fragment isFound isPath

/-- After any calls on a tree without links, a call for what a source imports that succeeds gives
each path once, and the source is not rejected for want of a module. What was known of a file stays,
and each import that leads to the file gets it, under its own path. -/
theorem fragments_serve_imports (settings : Settings) (calls : List (String × Option Path))
    (source : String) (current : Option Path) (fragments : List Fragment) :
    let state := calls.foldl (afterCall settings) .empty
    let ended := (fragmentsFor settings source current).run state
    ended.1 = .ok fragments →
      (fragments.map (·.path)).Nodup ∧
      (∃ body, parse source = .ok body ∧ ∀ kind line path,
        analyze kind fragments body ≠ .error (.checking (.unresolvedModule path) line)) ∧
      (∀ file first, state.fragment? file = some first → ended.2.fragment? file = some first) ∧
      ∃ requests, imports source = .ok requests ∧ ∀ fragment ∈ fragments, ∃ request ∈ requests,
        request.dotted = fragment.path ∧ (Catalog.covers request.path = false →
          ∃ file first, locate settings.tree settings.roots request.path current = .ok file ∧
            ended.2.fragment? file = some first ∧ Offers settings file first ∧
            (∃ module ∈ ended.2.compiled, module.file = file ∧ module.path = first.path) ∧
            fragment = ⟨request.dotted, first.symbols.map fun symbol =>
              { symbol with origin := .module request.dotted }⟩) := by
  intro state ended succeeded
  obtain ⟨advances, gathers⟩ :=
    ends_fragmentsFor (sound_afterCalls settings calls) source current
  obtain ⟨requests, areRequests, gathered⟩ := gathers fragments succeeded
  obtain ⟨body, parsed, rfl⟩ : ∃ body, parse source = .ok body ∧ importsOf body = requests := by
    simpa [imports] using areRequests
  refine ⟨gathered.distinct, ⟨body, parsed, gathered.resolves⟩,
    fun _ _ => State.fragment?_mono advances.loaded_prefix, _, areRequests, ?_⟩
  intro fragment member
  obtain ⟨request, isRequest, _, isPath, served⟩ := gathered.served fragment member
  refine ⟨request, isRequest, isPath, fun isFile => ?_⟩
  obtain ⟨file, first, located, known, isFragment⟩ := served isFile
  obtain ⟨offers, compiled⟩ := advances.sound.offers_of_fragment? known
  exact ⟨file, first, located, known, offers, compiled, isFragment⟩

/-- A directory with one module, to which every path leads that ends in its name. -/
def oneModule : Settings where
  tree := { root := .directory [("a.pyr", .file "def f():\n pass".toUTF8)], home := [] }
  roots := [⟨"."⟩]
  support := defaultSupport

theorem fragments_serve_imports_oneModule :
    ∃ fragments, ((fragmentsFor oneModule "import a\nimport b.a" none).run .empty).1 =
        .ok fragments ∧
      fragments.map (·.path) = ["a", "b.a"] ∧
      (fragments.map (·.symbols.map fun symbol => (symbol.name, symbol.origin))) =
        [[("f", .module "a")], [("f", .module "b.a")]] ∧
      (∃ body, parse "import a\nimport b.a" = .ok body ∧ ∀ kind line path,
        analyze kind fragments body ≠ .error (.checking (.unresolvedModule path) line)) := by
  have evaluates : ((fragmentsFor oneModule "import a\nimport b.a" none).run .empty).1.toOption.map
      (fun fragments => (fragments.map (·.path),
        fragments.map (·.symbols.map fun symbol => (symbol.name, symbol.origin)))) =
      some (["a", "b.a"], [[("f", .module "a")], [("f", .module "b.a")]]) := by decide +kernel
  cases succeeds : ((fragmentsFor oneModule "import a\nimport b.a" none).run .empty).1 with
  | error failure => simp [succeeds, Except.toOption] at evaluates
  | ok fragments =>
      obtain ⟨_, resolved, _⟩ :=
        fragments_serve_imports oneModule [] "import a\nimport b.a" none fragments succeeds
      simp only [succeeds, Except.toOption, Option.map_some, Option.some_inj, Prod.mk.injEq]
        at evaluates
      exact ⟨fragments, rfl, evaluates.1, evaluates.2, resolved⟩

end Library

end Offside
