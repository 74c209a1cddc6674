/-
# Proofs.Language.Load -- which language files are loaded

Loading goes through a file in a fixed order and stops at the first mistake.  Most mistakes are
forgiven, and the fallback stands in.  Three are not, and each is told from the contents of the file:

* a language that is no table, or whose markers have no members, where its name and its file types
  are in order (`isShapeless`);
* flags among which is something that is no text (`flagsBreak`);
* a main pattern with a repetition count that is too large, or nested too deep (`patternBreaks`).

`Judged` says of a step of loading when it loads something and when it ends with a mistake that is
not forgiven; the judgement of a chain of steps is made of theirs (`Judged.bind`, `Judged.mapM`).  So
a mistake that is not forgiven does harm only if loading comes to it: behind a language that is not
in order nothing is looked at, and flags and main pattern only when all languages are in order
(`judged_ofEntries`).

What is loaded can always be used: there is a language, and the main pattern has its two groups
(`usable_of_load`).  A file is loaded or replaced by the fallback exactly if loading comes to no
mistake that is not forgiven (`load_falls_back_iff`).  All this holds whatever makes patterns of their
texts.

The additional patterns are made later.  Where each of them is invalid or has a group, that ends well
(`Table.exists_compileExtras`).
-/
import CodeAtlas.Language.Table
import CodeAtlas.Proofs.Run

namespace CodeAtlas.Language

set_option autoImplicit false

/-! ## Judgements -/

/-- When a step loads something, and when it ends with a mistake that is not forgiven. -/
structure Judged {α : Type} (x : Load α) (loads breaks : Bool) : Prop where
  loads_iff : (∃ a, x = .ok a) ↔ loads = true
  breaks_iff : (∃ f, x = .error (.fatal f)) ↔ breaks = true

namespace Judged

variable {α β : Type}

theorem ok (a : α) : Judged (.ok a) true false := ⟨by simp, by simp⟩

theorem forgiven : Judged (.error .forgiven : Load α) false false := ⟨by simp, by simp⟩

theorem fatal (f : Fault) : Judged (.error (.fatal f) : Load α) false true := ⟨by simp, by simp⟩

theorem of_eq {x y : Load α} {loads breaks loads' breaks' : Bool} (judged : Judged x loads breaks)
    (same : y = x) (loads_eq : loads' = loads) (breaks_eq : breaks' = breaks) :
    Judged y loads' breaks' := by
  subst same loads_eq breaks_eq
  exact judged

theorem map {x : Load α} {loads breaks : Bool} (judged : Judged x loads breaks) (f : α → β) :
    Judged (f <$> x) loads breaks := by
  obtain ⟨loads_iff, breaks_iff⟩ := judged
  cases x with
  | ok a => exact ⟨by simpa using loads_iff, by simpa using breaks_iff⟩
  | error e => exact ⟨by simpa using loads_iff, by simpa using breaks_iff⟩

/-- The second step is taken only if the first one has loaded something. -/
theorem bind {x : Load α} {f : α → Load β} {loads breaks loads' breaks' : Bool}
    (first : Judged x loads breaks) (second : ∀ a, x = .ok a → Judged (f a) loads' breaks') :
    Judged (x >>= f) (loads && loads') (breaks || loads && breaks') := by
  obtain ⟨loads_iff, breaks_iff⟩ := first
  cases x with
  | ok a =>
      obtain rfl : loads = true := loads_iff.mp ⟨a, rfl⟩
      obtain rfl : breaks = false := by simpa using breaks_iff
      simpa [Run.ok_bind] using second a rfl
  | error e =>
      obtain rfl : loads = false := by simpa using loads_iff
      cases e with
      | forgiven =>
          obtain rfl : breaks = false := by simpa using breaks_iff
          exact forgiven
      | fatal f =>
          obtain rfl : breaks = true := breaks_iff.mp ⟨f, rfl⟩
          exact fatal f

/-- In a list the first member that is not loaded decides. -/
theorem mapM {f : α → Load β} {loads breaks : α → Bool}
    (each : ∀ a, Judged (f a) (loads a) (breaks a)) (l : List α) :
    Judged (l.mapM f) (l.all loads) ((l.find? (!loads ·)).any breaks) := by
  induction l with
  | nil => exact ok []
  | cons a l ih =>
      rw [List.mapM_cons]
      have both := (each a).bind fun b _ => ih.map (b :: ·)
      apply both.of_eq rfl
      · rw [List.all_cons]
      · rw [List.find?_cons]
        cases loaded : loads a with
        | true =>
            obtain ⟨b, ran⟩ := (each a).loads_iff.mpr loaded
            have mended : breaks a = false := by simpa [ran] using (each a).breaks_iff
            simp [mended]
        | false => simp

end Judged

/-! ## Languages -/

/-- Can members be looked up in a value?  In a hollow one nothing is looked up. -/
def hasMembers (v : Value) : Bool := v.solid?.all (·.table?.isSome)

/-- Has the language a name that can be shown? -/
def isNamed (ms : Entries Value) : Bool := (ms.get? "name").any Value.isShowable

/-- Is the member a sequence of values that can be shown, or absent? -/
def isShowableList (ms : Entries Value) (key : Text) : Bool :=
  ((ms.get? key).getD (.list [])).sequence?.any (·.all Value.isShowable)

/-- A language that is loaded: a table with a name, markers with members, and lists of file types and
patterns. -/
def isDescriptor : Value → Bool
  | .table ms =>
      isNamed ms && isShowableList ms "file_types" &&
        hasMembers ((Entries.get? ms "comment_markers").getD .null) &&
          isShowableList ms "extra_patterns"
  | _ => false

/-- A language that is no table, or is in order up to its markers and these have no members. -/
def isShapeless : Value → Bool
  | .table ms =>
      isNamed ms && isShowableList ms "file_types" &&
        !hasMembers ((Entries.get? ms "comment_markers").getD .null)
  | _ => true

theorem judged_texts (v : Value) :
    Judged (texts v) (v.sequence?.any (·.all Value.isShowable)) false := by
  unfold texts
  cases v.sequence? with
  | none => exact .forgiven
  | some vs =>
      dsimp only [Option.any_some]
      cases vs.all Value.isShowable with
      | true => exact .ok _
      | false => exact .forgiven

theorem judged_loadMarkers (v : Value) : Judged (loadMarkers v) (hasMembers v) (!hasMembers v) := by
  unfold loadMarkers hasMembers
  cases v.solid? with
  | none => exact .ok ({} : Markers)
  | some m =>
      cases m with
      | table ms => exact .ok _
      | _ => exact .fatal _

theorem judged_loadName (ms : List (Text × Value)) :
    Judged (loadName (.table ms)) (isNamed ms) false := by
  simp only [loadName, isNamed]
  cases Entries.get? ms "name" with
  | none => exact .forgiven
  | some v =>
      dsimp only [Option.any_some]
      cases v.isShowable with
      | true => exact .ok _
      | false => exact .forgiven

theorem judged_loadDescriptor (v : Value) :
    Judged (loadDescriptor v) (isDescriptor v) (isShapeless v) := by
  cases v with
  | table ms =>
      have steps := (judged_loadName ms).bind fun name _ =>
        (judged_texts ((Entries.get? ms "file_types").getD (.list []))).bind fun fileTypes _ =>
          (judged_loadMarkers ((Entries.get? ms "comment_markers").getD .null)).bind fun markers _ =>
            (judged_texts ((Entries.get? ms "extra_patterns").getD (.list []))).bind
              fun extraPatterns _ => Judged.ok
                { name, fileTypes, markers, extraPatterns
                  strategy := loadStrategy ((Entries.get? ms "capture").getD .null) : Descriptor }
      apply steps.of_eq rfl
      · simp only [isDescriptor, isShowableList, Bool.and_true, Bool.and_assoc]
      · simp only [isShapeless, isShowableList, Bool.and_false, Bool.or_false, Bool.false_or,
          Bool.and_assoc]
  | _ => exact .fatal _

/-! ## Flags and main pattern -/

/-- Flags that are loaded: none, or a sequence of texts. -/
def flagsLoad (v : Value) : Bool := v.solid?.all (·.sequence?.any (·.all (·.text?.isSome)))

/-- Flags among which is something that is no text. -/
def flagsBreak (v : Value) : Bool := v.solid?.any (·.sequence?.any (·.any (·.text?.isNone)))

/-- Is the letter of a flag among these, in any case? -/
def declares (letters : List Value) (letter : Text) : Bool :=
  letters.any (·.text?.any (Text.lower · == letter))

/-- The flags whose letters are there. -/
def flagsIn (v : Value) : Pattern.Flags :=
  let letters := (v.solid?.bind Value.sequence?).getD []
  { ignoreCase := declares letters "i"
    multiLine := declares letters "m"
    dotAll := declares letters "s" }

theorem judged_loadFlags (v : Value) : Judged (loadFlags v) (flagsLoad v) (flagsBreak v) := by
  unfold loadFlags flagsLoad flagsBreak
  cases v.solid? with
  | none => exact .ok ({} : Pattern.Flags)
  | some v =>
      dsimp only [Option.all_some, Option.any_some]
      cases v.sequence? with
      | none => exact .forgiven
      | some letters =>
          dsimp only [Option.any_some]
          generalize ({} : Pattern.Flags) = flags
          induction letters generalizing flags with
          | nil => exact .ok flags
          | cons letter letters ih =>
              rw [List.foldlM_cons]
              cases letter with
              | text t => exact (ih (addFlag flags t)).of_eq rfl rfl rfl
              | _ => exact .fatal _

/-- One more letter. -/
theorem addFlag_eq (f : Pattern.Flags) (t : Text) : addFlag f t =
    { f with
      ignoreCase := Text.lower t == "i" || f.ignoreCase
      multiLine := Text.lower t == "m" || f.multiLine
      dotAll := Text.lower t == "s" || f.dotAll } := by
  unfold addFlag
  generalize Text.lower t = lowered
  by_cases isCase : lowered = "i".toList
  · subst isCase
    rfl
  by_cases isLines : lowered = "m".toList
  · subst isLines
    rfl
  by_cases isDots : lowered = "s".toList
  · subst isDots
    rfl
  simp only [beq_eq_false_iff_ne.mpr isCase, beq_eq_false_iff_ne.mpr isLines,
    beq_eq_false_iff_ne.mpr isDots, Bool.false_or, Bool.false_eq_true, if_false]

theorem foldlM_addFlag {letters : List Value} {f g : Pattern.Flags}
    (loaded : letters.foldlM (fun f letter =>
      match letter.text? with
      | some t => Except.ok (addFlag f t)
      | none => .error (.fatal .noSuchMember)) f = (.ok g : Load Pattern.Flags)) :
    g = { f with
      ignoreCase := declares letters "i" || f.ignoreCase
      multiLine := declares letters "m" || f.multiLine
      dotAll := declares letters "s" || f.dotAll } := by
  induction letters generalizing f with
  | nil =>
      cases loaded
      simp [declares]
  | cons letter letters ih =>
      rw [List.foldlM_cons] at loaded
      cases text : letter.text? with
      | none =>
          rw [text] at loaded
          cases loaded
      | some t =>
          rw [text] at loaded
          rw [ih loaded, addFlag_eq]
          simp [declares, text, Bool.or_left_comm, Bool.or_assoc]

/-- **Flags are loaded as their letters say.** -/
theorem eq_flagsIn {v : Value} {flags : Pattern.Flags} (loaded : loadFlags v = .ok flags) :
    flags = flagsIn v := by
  revert loaded
  unfold loadFlags flagsIn
  cases v.solid? with
  | none => rintro ⟨⟩; rfl
  | some v =>
      dsimp only [Option.bind_some]
      cases v.sequence? with
      | none => rintro ⟨⟩
      | some letters =>
          intro loaded
          simpa using foldlM_addFlag loaded

section Compiler

variable (compile : Pattern.Compiler)

/-- A main pattern that is loaded: a valid one with two groups. -/
def patternLoads (flags : Pattern.Flags) (v : Value) : Bool :=
  v.text?.any fun source => (compile source flags).toOption.any (2 ≤ ·.groups)

/-- A main pattern with a repetition count that is too large, or nested too deep. -/
def patternBreaks (flags : Pattern.Flags) (v : Value) : Bool :=
  v.text?.any fun source =>
    match compile source flags with
    | .error .tooLarge => true
    | .error .tooDeep => true
    | _ => false

/-- The part of `loadPattern` behind the flags. -/
def loadMain (flags : Pattern.Flags) (v : Value) : Load (Pattern × Pattern.Flags) :=
  match v with
  | .text source => do
      let p ← readPattern compile source flags
      if p.groups < 2 then throw .forgiven else return (p, flags)
  | _ => throw .forgiven

theorem judged_loadMain (flags : Pattern.Flags) (v : Value) :
    Judged (loadMain compile flags v) (patternLoads compile flags v)
      (patternBreaks compile flags v) := by
  cases v with
  | text source =>
      simp only [loadMain, patternLoads, patternBreaks, Value.text?, Option.any_some, readPattern]
      cases compile source flags with
      | error e =>
          cases e with
          | tooLarge => exact .fatal _
          | tooDeep => exact .fatal _
          | _ => exact .forgiven
      | ok p =>
          by_cases few : p.groups < 2
          · have short : decide (2 ≤ p.groups) = false := decide_eq_false (Nat.not_le.mpr few)
            simp only [Run.ok_bind, few, if_true, Except.toOption, Option.any_some, short]
            exact .forgiven
          · have enough : decide (2 ≤ p.groups) = true := decide_eq_true (Nat.not_lt.mp few)
            simp only [Run.ok_bind, few, if_false, Except.toOption, Option.any_some, enough]
            exact .ok _
  | _ => exact .forgiven

/-- The flags and the main pattern in a table. -/
def flagsOf (ms : Entries Value) : Value := (ms.get? "flags").getD (.text "i")

def mainOf (ms : Entries Value) : Value := (ms.get? "pattern").getD (.text defaultSource)

/-- A table of flags and main pattern that is loaded. -/
def isPattern : Value → Bool
  | .table ms =>
      flagsLoad (flagsOf ms) && patternLoads compile (flagsIn (flagsOf ms)) (mainOf ms)
  | _ => false

/-- No table, or one with a mistake that is not forgiven, in the flags or, behind flags that are in
order, in the main pattern. -/
def isBrokenPattern : Value → Bool
  | .table ms =>
      flagsBreak (flagsOf ms) ||
        flagsLoad (flagsOf ms) && patternBreaks compile (flagsIn (flagsOf ms)) (mainOf ms)
  | _ => true

theorem judged_loadPattern (v : Value) :
    Judged (loadPattern compile v) (isPattern compile v) (isBrokenPattern compile v) := by
  cases v with
  | table ms =>
      have main : ∀ flags, loadFlags (flagsOf ms) = .ok flags →
          Judged (loadMain compile flags (mainOf ms))
            (patternLoads compile (flagsIn (flagsOf ms)) (mainOf ms))
            (patternBreaks compile (flagsIn (flagsOf ms)) (mainOf ms)) := by
        intro flags loaded
        rw [← eq_flagsIn loaded]
        exact judged_loadMain compile flags (mainOf ms)
      apply ((judged_loadFlags (flagsOf ms)).bind main).of_eq _ rfl rfl
      rfl
  | _ => exact .fatal _

/-! ## Files -/

/-- The languages that a file declares, if it declares a sequence of them. -/
def languagesOf? (e : Entries Value) : Option (List Value) :=
  (e.get? "languages").bind Value.sequence?

def patternOf (e : Entries Value) : Value := (e.get? "comment_pattern").getD (.table [])

/-- The contents of a file that is loaded. -/
def isLoadable (e : Entries Value) : Bool :=
  (languagesOf? e).any fun vs => !vs.isEmpty && vs.all isDescriptor && isPattern compile (patternOf e)

/-- The contents of a file in which loading comes to a mistake that is not forgiven. -/
def isUnforgivable (e : Entries Value) : Bool :=
  (languagesOf? e).any fun vs =>
    (vs.find? (!isDescriptor ·)).any isShapeless ||
      !vs.isEmpty && vs.all isDescriptor && isBrokenPattern compile (patternOf e)

theorem judged_ofEntries (e : Entries Value) :
    Judged (ofEntries compile e) (isLoadable compile e) (isUnforgivable compile e) := by
  unfold ofEntries isLoadable isUnforgivable languagesOf?
  cases e.get? "languages" with
  | none => exact .forgiven
  | some v =>
      dsimp only [Option.bind_some]
      cases v.sequence? with
      | none => exact .forgiven
      | some vs =>
          dsimp only [Option.any_some]
          have languages := Judged.mapM judged_loadDescriptor vs
          have later : ∀ ds, vs.mapM loadDescriptor = .ok ds → Judged
              (do
                if ds.isEmpty then throw .forgiven
                let main ← loadPattern compile (patternOf e)
                return { languages := ds, pattern := main.1, flags := main.2, compile
                         defaultLanguage := (e.get? "default_language").getD .null : Table })
              (!vs.isEmpty && isPattern compile (patternOf e))
              (!vs.isEmpty && isBrokenPattern compile (patternOf e)) := by
            intro ds loaded
            have count := (Run.mapM_eq_ok_iff.mp loaded).length_eq
            cases ds with
            | nil =>
                obtain rfl := List.length_eq_zero_iff.mp count
                exact .forgiven
            | cons d ds =>
                have some_ : vs.isEmpty = false := by
                  rw [List.isEmpty_eq_false_iff, ← List.length_pos_iff, count]
                  simp
                have steps := (judged_loadPattern compile (patternOf e)).bind fun main _ => Judged.ok
                  { languages := d :: ds, pattern := main.1, flags := main.2, compile
                    defaultLanguage := (e.get? "default_language").getD .null : Table }
                apply steps.of_eq rfl
                · simp [some_]
                · simp [some_]
          apply (languages.bind later).of_eq rfl
          · rw [← Bool.and_assoc, Bool.and_comm (!vs.isEmpty)]
          · rw [Bool.and_comm (!vs.isEmpty), Bool.and_assoc]

/-! ## What is loaded -/

/-- A table with which documents can be scanned: it has a language, and its main pattern has a group
for the name and one for the description. -/
structure Usable (t : Table) : Prop where
  language : t.languages ≠ []
  groups : 2 ≤ t.pattern.groups

theorem usable_fallback : Usable fallback := ⟨by simp [fallback], by decide⟩

theorem groups_of_loadMain {flags : Pattern.Flags} {v : Value} {main : Pattern × Pattern.Flags}
    (loaded : loadMain compile flags v = .ok main) : 2 ≤ main.1.groups := by
  cases v with
  | text source =>
      rw [loadMain, Run.bind_eq_ok_iff] at loaded
      obtain ⟨q, -, loaded⟩ := loaded
      by_cases few : q.groups < 2
      · rw [if_pos few] at loaded
        cases loaded
      · rw [if_neg few] at loaded
        cases loaded
        exact Nat.not_lt.mp few
  | _ => cases loaded

theorem groups_of_loadPattern {v : Value} {main : Pattern × Pattern.Flags}
    (loaded : loadPattern compile v = .ok main) : 2 ≤ main.1.groups := by
  cases v with
  | table ms =>
      have steps : (loadFlags (flagsOf ms) >>= fun flags => loadMain compile flags (mainOf ms)) =
          .ok main := loaded
      obtain ⟨flags, -, loaded⟩ := Run.bind_eq_ok_iff.mp steps
      exact groups_of_loadMain compile loaded
  | _ => cases loaded

theorem usable_of_ofEntries {e : Entries Value} {t : Table}
    (loaded : ofEntries compile e = .ok t) : Usable t := by
  unfold ofEntries at loaded
  split at loaded
  · cases loaded
  · split at loaded
    · cases loaded
    · obtain ⟨ds, -, loaded⟩ := Run.bind_eq_ok_iff.mp loaded
      cases ds with
      | nil => cases loaded
      | cons d ds =>
          obtain ⟨main, pattern, loaded⟩ := Run.bind_eq_ok_iff.mp loaded
          cases loaded
          exact ⟨List.cons_ne_nil d ds, groups_of_loadPattern compile pattern⟩

/-- **What is loaded can be used**, whether it comes from the file or is the fallback. -/
theorem usable_of_load {text? : Option Text} {t : Table} (loaded : load compile text? = .ok t) :
    t = { fallback with compile } ∨ Usable t := by
  unfold load at loaded
  split at loaded
  · exact .inl (Except.ok.inj loaded).symm
  · exact .inl (Except.ok.inj loaded).symm
  · exact .inl (Except.ok.inj loaded).symm
  · cases loaded
  · split at loaded
    · rename_i table fromFile
      cases loaded
      exact .inr (usable_of_ofEntries compile fromFile)
    · exact .inl (Except.ok.inj loaded).symm
    · cases loaded

/-- What may come of reading the notation of a file: contents without a mistake that is not forgiven,
or a failure for which the fallback stands in. -/
def Forgiven (contents : Except Fault (Entries Value)) : Prop :=
  match contents with
  | .ok e => isUnforgivable compile e = false
  | .error f => f = .unreadable ∨ f = .wrongKind

theorem exists_load_iff (text? : Option Text) :
    (∃ t, load compile text? = .ok t) ↔
      ∀ text, text? = some text → Forgiven compile (Toml.read (Text.withLineFeeds text)) := by
  cases text? with
  | none => simp [load]
  | some text =>
      simp only [Option.some.injEq, forall_eq', load, Option.map_some, Forgiven]
      cases Toml.read (Text.withLineFeeds text) with
      | error f =>
          cases f with
          | unreadable => exact iff_of_true ⟨_, rfl⟩ (.inl rfl)
          | wrongKind => exact iff_of_true ⟨_, rfl⟩ (.inr rfl)
          | _ => exact iff_of_false Run.not_exists_ok (by rintro (⟨⟨⟩⟩ | ⟨⟨⟩⟩))
      | ok e =>
          have breaks_iff := (judged_ofEntries compile e).breaks_iff
          dsimp only
          rw [← Bool.not_eq_true, ← breaks_iff]
          cases ofEntries compile e with
          | ok t => simp
          | error e =>
              cases e with
              | forgiven => simp
              | fatal f => simp

end Compiler

/-- The main pattern of a table that has been loaded has its two groups. -/
theorem grouped_of_load {compile : Pattern.Compiler} {text? : Option Text} {t : Table}
    (loaded : load compile text? = .ok t) : 2 ≤ t.pattern.groups := by
  rcases usable_of_load compile loaded with rfl | usable
  · exact usable_fallback.groups
  · exact usable.groups

/-! ## Tables that can be depended on -/

/-- An additional pattern that is passed over because it is invalid, or has a group for the name. -/
def Table.isDependable (t : Table) (source : Text) : Bool :=
  match t.compile source t.flags with
  | .ok p => 1 ≤ p.groups
  | .error .invalid => true
  | .error _ => false

/-- All markers are texts, and no additional pattern can do harm. -/
structure Table.Dependable (t : Table) : Prop where
  markers : ∀ d ∈ t.languages, d.markers.allPlain = true
  patterns : ∀ d ∈ t.languages, ∀ source ∈ d.extraPatterns, t.isDependable source = true

theorem Table.exists_compileExtras {t : Table} {d : Descriptor}
    (dependable : ∀ source ∈ d.extraPatterns, t.isDependable source = true) :
    ∃ ps, t.compileExtras d = .ok ps ∧ ∀ p ∈ ps, 1 ≤ p.groups := by
  unfold Table.compileExtras
  apply Run.exists_foldlM
  · intro source member done grouped
    have here := dependable source member
    unfold isDependable at here
    cases made : t.compile source t.flags with
    | ok p =>
        refine ⟨done ++ [p], rfl, ?_⟩
        intro q inside
        rcases List.mem_append.mp inside with old | new
        · exact grouped q old
        · rw [List.mem_singleton.mp new]
          simpa [made] using here
    | error e =>
        cases e with
        | invalid => exact ⟨done, rfl, grouped⟩
        | _ => simp [made] at here
  · simp

end CodeAtlas.Language
