/-
The built-in library stands alone.

Neither of the words that an import or an export starts with stands anywhere in its text, so it has no
statement that leads to another file. A program is therefore the library and what its roots lead to.
The same words would make it a module; without them it is a script, and its names are global.
-/
import DeclKit.Program.Basic
import DeclKit.Proofs.Parser.File

set_option autoImplicit false

namespace DeclKit

/-- The words that links start with. -/
theorem text_of_opensLink {t : Token} (hword : Kind.keyword? t.text = some t.kind)
    (hopens : Parser.opensLink t.kind = true) : t.text = "import" ∨ t.text = "export" := by
  unfold Kind.keyword? at hword
  split at hword
  case h_1 h => exact .inr h
  case h_2 h => exact .inl h
  case h_19 => cases hword
  all_goals
    rw [← Option.some.inj hword] at hopens
    cases hopens

/-- A text in which these words stand nowhere leads to no other file. -/
theorem opensLink_of_absent {text : String} (himport : ¬ "import".toList <:+: text.toList)
    (hexport : ¬ "export".toList <:+: text.toList) :
    ∀ t ∈ Token.lex text, Parser.opensLink t.kind = false := by
  intro t ht
  by_contra hopens
  rw [Bool.not_eq_false] at hopens
  have hkeyword : t.kind.isKeyword = true := by
    unfold Parser.opensLink at hopens
    split at hopens
    · rename_i h
      rw [h]
      rfl
    · rename_i h
      rw [h]
      rfl
    · cases hopens
  obtain ⟨before, after, htext, -⟩ := Token.text_at_token ht
  have hinfix : t.text.toList <:+: text.toList :=
    ⟨before.toList, after.toList, by rw [htext, String.toList_append, String.toList_append]⟩
  rcases text_of_opensLink (Token.keyword?_of_mem_lex ht hkeyword) hopens with h | h
  · exact himport (h ▸ hinfix)
  · exact hexport (h ▸ hinfix)

namespace Program

theorem specifiers_of_linkless {tree : Tree} (h : Parser.Linkless tree.children) :
    specifiers ⟨tree, []⟩ = [] := by
  rw [specifiers, List.filterMap_eq_nil_iff]
  intro s hs
  rw [Node.statements, List.mem_filter] at hs
  obtain ⟨t, ht, rfl⟩ := List.mem_map.1 hs.1
  rw [List.mem_filter] at ht
  cases t with
  | token t => cases ht.2
  | node k a b cs =>
    have hlink := h k a b cs ht.1
    split
    · rename_i hk
      rw [show k = .importDecl from hk] at hlink
      cases hlink
    · rename_i hk
      rw [show k = .exportDecl from hk] at hlink
      cases hlink
    · rfl

set_option maxRecDepth 100000 in
/-- The characters of the library, among which the words are not. -/
theorem library_chars : ∃ cs, Library.text = String.ofList cs ∧
    ¬ ['i', 'm', 'p', 'o', 'r', 't'] <:+: cs ∧ ¬ ['e', 'x', 'p', 'o', 'r', 't'] <:+: cs :=
  ⟨_, rfl, by decide +kernel⟩

/-- No word of the library starts a link. -/
theorem opensLink_library : ∀ t ∈ Token.lex Library.text, Parser.opensLink t.kind = false := by
  obtain ⟨cs, htext, himport, hexport⟩ := library_chars
  refine opensLink_of_absent ?_ ?_
  · rw [htext]
    simpa using himport
  · rw [htext]
    simpa using hexport

/-- No statement of the library leads to another file. -/
theorem specifiers_library {source : SourceId} {limits : Limits} {q : ParsedFile}
    (h : parseWith source limits Library.text = .ok q) : specifiers ⟨q.tree, []⟩ = [] :=
  specifiers_of_linkless (parseWith_linkless h opensLink_library)

/-- The library is a script: none of its statements is a link, and none has a word that exports it. -/
theorem isModule_library {source : SourceId} {limits : Limits} {q : ParsedFile}
    (h : parseWith source limits Library.text = .ok q) :
    (Node.mk q.tree []).isModule = false := by
  have hlinkless := parseWith_linkless h opensLink_library
  rw [Node.isModule, List.any_eq_false]
  intro c hc
  have hplain : c.hasToken .kwExport = false := by
    rw [Node.hasToken, List.any_eq_false]
    intro t ht hkind
    have hlex : t ∈ Token.lex Library.text := by
      rw [← (parseWith_spec h).2.1]
      exact Node.tokens_subset_of_children hc (Node.leaves_subset_tokens ht)
    have hopens := opensLink_library t hlex
    rw [eq_of_beq hkind] at hopens
    cases hopens
  obtain ⟨t, ht, rfl⟩ := List.mem_map.1 hc
  obtain ⟨hmem, hnode⟩ := List.mem_filter.1 ht
  cases t with
  | token t => cases hnode
  | node k a b cs =>
    have hlink := hlinkless k a b cs hmem
    intro hmodule
    split at hmodule
    case h_1 hk | h_2 hk | h_3 hk =>
      rw [show k = _ from hk] at hlink
      cases hlink
    case h_9 => cases hmodule
    all_goals
      rw [hplain] at hmodule
      cases hmodule

end Program

end DeclKit
