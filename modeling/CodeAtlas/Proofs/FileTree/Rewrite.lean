/-
# Proofs.FileTree.Rewrite -- a file that is there can be written anew

A path that leads to a file leads there for writing as well (`placeToWrite_of_leads`): the links
that may be followed are enough, since one of them is used up before the rest is followed anew.  So
a file that can be read can be written, and is then read as it was written
(`exists_write_of_read`).

The directories on the way to a file are there, so none of them has to be made
(`makeDirectories_of_read`).
-/
import CodeAtlas.Proofs.FileTree.Resolve

namespace CodeAtlas.FileTree

set_option autoImplicit false

variable {t : FileTree} {links links' root : Nat} {here p : Place} {names rest : List Text}
  {path : Path} {content old : Bytes}

theorem read_eq_ok_iff : t.read path = .ok content ↔
    ∃ p, t.locate path = .ok p ∧ t.node? p = some (.file content) := by
  constructor
  · intro read
    rw [FileTree.read] at read
    split at read
    · cases read
    · rename_i p located
      split at read
      · rename_i found node
        cases read
        exact ⟨p, located, node⟩
      · cases read
  · rintro ⟨p, located, node⟩
    exact read_of_locate located node

theorem isFile_of_read (read : t.read path = .ok content) : t.isFile path = true := by
  obtain ⟨p, located, node⟩ := read_eq_ok_iff.mp read
  rw [isFile, find?, located]
  dsimp only
  rw [node]

/-- A walk that does not follow a link at its end stops where the walk that does arrives, or at a
link with fewer links behind it. -/
theorem Leads.stops (leads : Leads t true links here names p) :
    ∃ q, Leads t false links here names q ∧ (q = p ∨ ∃ target left, left < links ∧
      t.node? q = some (.link target) ∧
      Leads t true left (if (Path.ofText target).isAbsolute then [] else q.dropLast)
        (Path.ofText target).parts p) := by
  induction leads with
  | arrived => exact ⟨_, .arrived, .inl rfl⟩
  | up _ ih =>
      obtain ⟨q, stops, behind⟩ := ih
      exact ⟨q, .up stops, behind⟩
  | stay nowhere _ ih =>
      obtain ⟨q, stops, behind⟩ := ih
      exact ⟨q, .stay nowhere stops, behind⟩
  | down entry node _ ih =>
      obtain ⟨q, stops, behind⟩ := ih
      exact ⟨q, .down entry node stops, behind⟩
  | file entry node => exact ⟨_, .file entry node, .inl rfl⟩
  | link _ _ stop => cases stop
  | @through links here p name target rest entry node go onward ih =>
      by_cases last : rest = []
      · subst last
        rw [List.append_nil] at onward
        refine ⟨_, .link entry node rfl, .inr ⟨target, links, Nat.lt_succ_self _, node, ?_⟩⟩
        rw [List.dropLast_concat]
        exact onward.thinned (thinned_components target)
      · obtain ⟨q, stops, behind⟩ := ih
        refine ⟨q, .through entry node (fun none_ => absurd none_ last) stops, ?_⟩
        rcases behind with here_ | ⟨target', left, fewer, node', onward'⟩
        · exact .inl here_
        · exact .inr ⟨target', left, Nat.lt_succ_of_lt fewer, node', onward'⟩

/-- **A path that leads to a file leads there for writing.** -/
theorem placeToWrite_of_leads (leads : Leads t true links here names p) (small : links ≤ maxLinks)
    (enough : links ≤ links') (file : t.node? p = some (.file content)) :
    t.placeToWrite links' here names = .ok p := by
  induction links using Nat.strong_induction_on generalizing here names links' with
  | _ links ih =>
      obtain ⟨q, stops, behind⟩ := leads.stops
      have located : t.locateFrom false maxLinks here names = .ok q :=
        locateFrom_of_leads (stops.more small)
      rw [placeToWrite, located]
      rcases behind with rfl | ⟨target, left, fewer, node, onward⟩
      · simp only [file]
      · obtain ⟨more, rfl⟩ : ∃ more, links' = more + 1 := ⟨links' - 1, by omega⟩
        simp only [node]
        exact ih left fewer onward (by omega) (by omega)

/-- **A file that can be read can be written**, and is read as it was written. -/
theorem exists_write_of_read (read : t.read path = .ok old) (content : Bytes) :
    ∃ t', t.write path content = .ok t' ∧ t'.read path = .ok content := by
  obtain ⟨p, located, node⟩ := read_eq_ok_iff.mp read
  have leads := leads_of_locateFrom located
  have free := isFree_of_file node
  have found : t.placeToWrite maxLinks [] path.parts = .ok p :=
    placeToWrite_of_leads leads (Nat.le_refl _) (Nat.le_refl _) node
  refine ⟨t.put p (.file content), by rw [write, found]; rfl, ?_⟩
  exact read_of_locate (locateFrom_of_leads (leads.mono (keeps_put free content)))
    (node?_put_self t free.ne_nil _)

/-- **The directories on the way to a file need not be made.** -/
theorem makeDirectories_of_read (read : t.read ⟨root, names ++ rest⟩ = .ok content)
    (more : rest ≠ []) : t.makeDirectories ⟨root, names⟩ = .ok t := by
  obtain ⟨p, located, -⟩ := read_eq_ok_iff.mp read
  rw [makeDirectories]
  refine foldlM_of_ok fun n _ => ?_
  have whole : names.take (n + 1) ++ (names.drop (n + 1) ++ rest) = names ++ rest := by
    rw [← List.append_assoc, List.take_append_drop]
  have leads : Leads t true maxLinks [] (names.take (n + 1) ++ (names.drop (n + 1) ++ rest)) p :=
    whole ▸ leads_of_locateFrom located
  obtain ⟨d, first, -, stop⟩ := leads.split
  have directory : t.isDirectory ⟨root, names.take (n + 1)⟩ = true := by
    have arrives : t.locate ⟨root, names.take (n + 1)⟩ = .ok d := locateFrom_of_leads first
    rw [isDirectory, find?, arrives]
    simp [(stop (by simp [more]) (grounded_nil t)).self]
  simp only [directory, if_true]

end CodeAtlas.FileTree
