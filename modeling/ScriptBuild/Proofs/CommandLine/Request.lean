import ScriptBuild.CommandLine.Request
import ScriptBuild.Proofs.Build.Options
import ScriptBuild.Proofs.Result

/-!
# What a request holds

The items of a command line are taken one after the other, and what has been taken so far holds
every value that has been given so far. So a request that is made in the end holds the sources and
the loaded modules in the order in which they are given, and each other value either as the only one
given for its parameter or as the default of a parameter that is left out.
-/

namespace ScriptBuild.CommandLine

set_option autoImplicit false

def Item.valueOf? (p : Parameter) : Item → Option String
  | .setting q value => if q = p then some value else none
  | _ => none

def Item.source? : Item → Option String
  | .source text => some text
  | _ => none

def given (p : Parameter) (items : List Item) : List String := items.filterMap (Item.valueOf? p)

def givenSources (items : List Item) : List String := items.filterMap Item.source?

/-- What a parameter that may be left out comes to: what its only value means, or the default. -/
inductive Settled {α : Type} (Means : String → α → Prop) (default : α) : List String → α → Prop
  | given {text : String} {a : α} (h : Means text a) : Settled Means default [text] a
  | absent : Settled Means default [] default

/-- A request holds what items give. -/
structure Request.Holds (request : Request) (items : List Item) : Prop where
  sources : request.sources.map Path.text = givenSources items
  output : given .output items = [request.output.text]
  indexRoot : given .indexRoot items = [request.indexRoot.text]
  extension : Settled Eq ModuleIndex.defaultExtension (given .extension items) request.extension
  loaded : request.loaded.map Path.text = given .loaded items
  mode : Settled (fun text mode => ∃ m, mode = some m ∧ Spells (BuildMode.word m) text) none
    (given .mode items) request.mode
  policy : Settled (fun text policy => ∃ word ∈ policy.words, Spells word text) .loadedAndMatched
    (given .policy items) request.policy
  compiler : Settled Eq defaultCompiler (given .compiler items) request.compiler

variable {α : Type} {read : String → Except UsageError α} {values : List String} {as : List α}
  {a : α} {present now : Option α} {text written : String} {paths : List Path} {p q : Parameter}
  {item : Item} {items before : List Item} {d d' : Draft} {request : Request}

/-! ## Values that are read -/

def Reads (read : String → Except UsageError α) (values : List String) (as : List α) : Prop :=
  values.map read = as.map .ok

theorem Reads.concat (h : Reads read values as) (ha : read text = .ok a) :
    Reads read (values ++ [text]) (as ++ [a]) := by
  rw [Reads, List.map_append, List.map_append, h, List.map_singleton, List.map_singleton, ha]

theorem Reads.once (h : Reads read values present.toList)
    (hOnce : once p present (read text) = .ok now) : Reads read (values ++ [text]) now.toList := by
  cases present with
  | some a => cases hOnce
  | none =>
    cases hRead : read text with
    | error e =>
      rw [hRead] at hOnce
      cases hOnce
    | ok a =>
      rw [hRead] at hOnce
      obtain rfl := Except.ok.inj hOnce
      exact h.concat hRead

theorem Reads.eq_nil (h : Reads read values []) : values = [] := List.map_eq_nil_iff.mp h

theorem Reads.eq_singleton (h : Reads read values [a]) :
    ∃ text, values = [text] ∧ read text = .ok a := by
  obtain ⟨text, rest, hValues, hRead, hRest⟩ := List.map_eq_cons_iff.mp h
  rw [List.map_eq_nil_iff.mp hRest] at hValues
  exact ⟨text, hValues, hRead⟩

theorem Reads.settled {Means : String → α → Prop} {default : α}
    (hMeans : ∀ text a, read text = .ok a → Means text a) (h : Reads read values present.toList) :
    Settled Means default values (present.getD default) := by
  cases present with
  | none =>
    rw [h.eq_nil]
    exact .absent
  | some a =>
    obtain ⟨text, rfl, hRead⟩ := h.eq_singleton
    exact .given (hMeans text a hRead)

theorem text_of_pathOf {path : Path} (h : pathOf written text = .ok path) : path.text = text := by
  rw [pathOf] at h
  split at h
  · cases h
  · obtain rfl := Except.ok.inj h
    rfl

theorem Reads.texts (h : Reads (pathOf written) values paths) : paths.map Path.text = values := by
  induction paths generalizing values with
  | nil => rw [h.eq_nil, List.map_nil]
  | cons path paths ih =>
    obtain ⟨text, rest, rfl, hRead, hRest⟩ := List.map_eq_cons_iff.mp h
    rw [List.map_cons, text_of_pathOf hRead, ih hRest]

/-! ## Taking an item -/

def modeOf (text : String) : Except UsageError BuildMode :=
  (BuildMode.ofWord text).mapError fun e => .invalidValue .mode text e.message

def policyOf (text : String) : Except UsageError ReferencePolicy :=
  (ReferencePolicy.ofWord text).mapError fun e => .invalidValue .policy text e.message

def Draft.Holds (d : Draft) (values : List String) : Parameter → Prop
  | .output => Reads (pathOf Parameter.output.written) values d.output.toList
  | .indexRoot => Reads (pathOf Parameter.indexRoot.written) values d.indexRoot.toList
  | .extension => Reads .ok values d.extension.toList
  | .loaded => Reads (pathOf Parameter.loaded.written) values d.loaded
  | .mode => Reads modeOf values d.mode.toList
  | .policy => Reads policyOf values d.policy.toList
  | .compiler => Reads .ok values d.compiler.toList

structure Draft.Follows (d : Draft) (items : List Item) : Prop where
  sources : Reads (pathOf sourcesWritten) (givenSources items) d.sources
  settings : ∀ p, d.Holds (given p items) p

/-- The value of a parameter is added to what is held of it. -/
theorem Draft.holds_set (hSet : d.set p text = .ok d') (h : d.Holds values p) :
    d'.Holds (values ++ [text]) p := by
  cases p with
  | loaded =>
    obtain ⟨path, hPath, ⟨⟩⟩ := bind_eq_ok_iff.mp hSet
    exact Reads.concat h hPath
  | _ =>
    obtain ⟨now, hOnce, ⟨⟩⟩ := bind_eq_ok_iff.mp hSet
    exact Reads.once h hOnce

theorem Draft.sources_set (hSet : d.set p text = .ok d') : d'.sources = d.sources := by
  cases p with
  | _ =>
    obtain ⟨now, -, ⟨⟩⟩ := bind_eq_ok_iff.mp hSet
    rfl

theorem Draft.holds_set_of_ne (hSet : d.set p text = .ok d') (hq : q ≠ p) :
    d'.Holds values q = d.Holds values q := by
  cases p with
  | _ =>
    obtain ⟨now, -, ⟨⟩⟩ := bind_eq_ok_iff.mp hSet
    cases q with
    | _ => first | rfl | exact absurd rfl hq

theorem filterMap_concat (f : Item → Option String) (items : List Item) (item : Item) :
    (items ++ [item]).filterMap f = items.filterMap f ++ (f item).toList := by
  rw [List.filterMap_append]
  cases h : f item with
  | none => rw [List.filterMap_cons_none h]; rfl
  | some text => rw [List.filterMap_cons_some h]; rfl

theorem given_concat (p : Parameter) (items : List Item) (item : Item) :
    given p (items ++ [item]) = given p items ++ (item.valueOf? p).toList :=
  filterMap_concat _ items item

theorem givenSources_concat (items : List Item) (item : Item) :
    givenSources (items ++ [item]) = givenSources items ++ item.source?.toList :=
  filterMap_concat _ items item

theorem Draft.follows_take (h : d.Follows items) (hTake : d.take item = .ok d') :
    d'.Follows (items ++ [item]) := by
  cases item with
  | source text =>
    rw [Draft.take] at hTake
    cases hPath : pathOf sourcesWritten text with
    | error e =>
      rw [hPath] at hTake
      cases hTake
    | ok path =>
      rw [hPath] at hTake
      obtain rfl := Except.ok.inj hTake
      constructor
      · rw [givenSources_concat]
        exact h.sources.concat hPath
      · intro p
        rw [given_concat]
        simpa [Item.valueOf?, Draft.Holds] using h.settings p
  | setting p text =>
    have hSet : d.set p text = .ok d' := mapError_eq_ok_iff.mp hTake
    constructor
    · rw [givenSources_concat, Draft.sources_set hSet]
      simpa [Item.source?] using h.sources
    · intro q
      rw [given_concat, Item.valueOf?]
      by_cases hq : p = q
      · subst hq
        rw [if_pos rfl]
        exact Draft.holds_set hSet (h.settings p)
      · rw [if_neg hq, Option.toList_none, List.append_nil, Draft.holds_set_of_ne hSet (Ne.symm hq)]
        exact h.settings q
  | flag f => cases hTake
  | fault e => cases hTake

theorem Draft.follows_foldlM (h : d.Follows before) (hRun : items.foldlM Draft.take d = .ok d') :
    d'.Follows (before ++ items) := by
  induction items generalizing d before with
  | nil =>
    obtain rfl := Except.ok.inj hRun
    rw [List.append_nil]
    exact h
  | cons item items ih =>
    rw [List.foldlM_cons] at hRun
    cases hTake : d.take item with
    | error e =>
      rw [hTake] at hRun
      cases hRun
    | ok next =>
      rw [hTake] at hRun
      have hNext := ih (Draft.follows_take h hTake) hRun
      rw [List.append_assoc] at hNext
      exact hNext

theorem Draft.follows_empty : Draft.Follows {} [] := by
  constructor
  · rfl
  · intro p
    cases p <;> rfl

/-! ## Requests -/

theorem modeOf_eq_ok_iff {mode : BuildMode} : modeOf text = .ok mode ↔ Spells mode.word text := by
  rw [← BuildMode.ofWord_eq_ok_iff, modeOf, mapError_eq_ok_iff]

theorem policyOf_eq_ok_iff {policy : ReferencePolicy} :
    policyOf text = .ok policy ↔ ∃ word ∈ policy.words, Spells word text := by
  rw [← ReferencePolicy.ofWord_eq_ok_iff, policyOf, mapError_eq_ok_iff]

theorem Reads.settled_mode {mode : Option BuildMode} (h : Reads modeOf values mode.toList) :
    Settled (fun text mode => ∃ m, mode = some m ∧ Spells (BuildMode.word m) text) none values
      mode := by
  cases mode with
  | none =>
    rw [h.eq_nil]
    exact .absent
  | some m =>
    obtain ⟨text, rfl, hRead⟩ := h.eq_singleton
    exact .given ⟨m, rfl, modeOf_eq_ok_iff.mp hRead⟩

theorem Draft.holds_of_finish (h : d.Follows items) (hFinish : d.finish = .ok request) :
    request.Holds items := by
  rw [Draft.finish] at hFinish
  split at hFinish
  · rename_i output indexRoot _ _ hOutput hIndexRoot _
    obtain rfl := Except.ok.inj hFinish
    have hGivenOutput := h.settings .output
    have hGivenRoot := h.settings .indexRoot
    rw [Draft.Holds, hOutput] at hGivenOutput
    rw [Draft.Holds, hIndexRoot] at hGivenRoot
    exact {
      sources := h.sources.texts
      output := hGivenOutput.texts.symm
      indexRoot := hGivenRoot.texts.symm
      extension := Reads.settled (fun _ _ => Except.ok.inj) (h.settings .extension)
      loaded := Reads.texts (h.settings .loaded)
      mode := Reads.settled_mode (h.settings .mode)
      policy := Reads.settled (fun _ _ => policyOf_eq_ok_iff.mp) (h.settings .policy)
      compiler := Reads.settled (fun _ _ => Except.ok.inj) (h.settings .compiler) }
  · cases hFinish

theorem Draft.sources_of_finish (hFinish : d.finish = .ok request) : request.sources ≠ [] := by
  rw [Draft.finish] at hFinish
  split at hFinish
  · rename_i hSources
    obtain rfl := Except.ok.inj hFinish
    simp [hSources]
  · cases hFinish

theorem Request.exists_draft {args : List String} (h : Request.ofArguments args = .ok request) :
    ∃ d, (itemsOf args).foldlM Draft.take {} = .ok d ∧ d.finish = .ok request := by
  rw [Request.ofArguments] at h
  cases hRun : (itemsOf args).foldlM Draft.take {} with
  | error e =>
    rw [hRun] at h
    cases h
  | ok d =>
    rw [hRun] at h
    exact ⟨d, rfl, h⟩

/-- A request that is accepted holds what its arguments give. -/
theorem Request.holds_of_ofArguments {args : List String}
    (h : Request.ofArguments args = .ok request) : request.Holds (itemsOf args) := by
  obtain ⟨d, hRun, hFinish⟩ := exists_draft h
  exact Draft.holds_of_finish (Draft.follows_foldlM Draft.follows_empty hRun) hFinish

theorem Request.sources_of_ofArguments {args : List String}
    (h : Request.ofArguments args = .ok request) : request.sources ≠ [] := by
  obtain ⟨d, -, hFinish⟩ := exists_draft h
  exact Draft.sources_of_finish hFinish

end ScriptBuild.CommandLine
