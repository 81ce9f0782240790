import NativeBindings.Binding
import NativeBindings.Proofs.WrittenLines

/-!
# Documents that are written

Finished declarations can be written, so each of the six documents is complete: its
rendering ends well and closes every block that it opens. Complete documents are written
one after the other, and a well-typed header always gets its binding.
-/

namespace NativeBindings

open CSharp

namespace Render

/-! ## Documents -/

/-- Finished declarations can be written as they are. -/
theorem renderable_of_finished {d : DeclarationSet} (h : Finish.Finished d) : d.Renderable where
  constants := List.forall_mem_append.mpr ⟨h.constants, h.enumConstants⟩
  structs := by
    have hplain : ∀ s : Struct, Finish.Plain s → s.Renderable := by
      rintro ⟨_, _, inner, _⟩ ⟨hfields, hinner⟩
      have hinner : inner = [] := hinner
      subst hinner
      exact .intro hfields fun i hi => absurd hi (by simp)
    exact List.forall_mem_append.mpr ⟨fun s hs => hplain s (h.structs s hs),
      fun s hs => hplain s (h.inlineArrays s hs)⟩
  delegates := h.delegates
  functions := h.functions

theorem document_completes {d : DeclarationSet} (h : Finish.Finished d) (o : Options)
    (which : Document) : Completes (document o d which) :=
  (document_writes (renderable_of_finished h) o which).toCompletes

/-! ## Pages -/

/-- The text of a document that was rendered from its head on. -/
def textOf (marks : List Mark) : String := Page.text { lines := Mark.writtenAll 0 marks }

/-- The entry of a document: its name and its text. -/
def documentEntry (o : Options) (d : DeclarationSet) (which : Document) : String × String :=
  (o.documentName which.word, textOf (document o d which).trace)

/-- Different documents have different names, whatever the settings. -/
theorem documentName_injective (o : Options) :
    Function.Injective fun which : Document => o.documentName which.word := by
  intro x y h
  have hword : x.word = y.word := by
    dsimp only [Options.documentName] at h
    exact (String.append_right_inj _).mp ((String.append_left_inj _).mp h)
  cases x <;> cases y <;> first | rfl | exact absurd hword (by decide)

/-- The rendering ends well, and on a fresh page it ends at the level where it began. -/
structure Closes (r : Rendered) : Prop where
  result : r.result = .ok ()
  level : Mark.levelAfterAll 0 r.trace = 0

theorem Completes.closes {r : Rendered} (h : Completes r) : Closes r := ⟨h.result, h.balanced 0⟩

/-- A rendering that closes is one document more, and leaves the page as it was before. -/
theorem complete_apply {p : Page} (hlevel : p.level = 0) (hlines : p.lines = []) {marks : List Mark}
    (h : Mark.levelAfterAll 0 marks = 0) {name : String}
    (hname : p.documents.contains name = false) : (p.apply marks).complete name =
      .ok { p with documents := ⟨p.documents.entries ++ [(name, textOf marks)]⟩ } := by
  obtain ⟨level, lines, documents⟩ := p
  dsimp only at hlevel hlines hname
  subst hlevel hlines
  have hafter : (Page.apply { documents } marks).level = 0 := h
  have htext : (Page.apply { documents } marks).text = textOf marks := rfl
  have hdocuments : (Page.apply { documents } marks).documents = documents := rfl
  rw [Page.complete, if_pos hafter, hafter, htext, hdocuments,
    OrderedMap.insert_of_contains_eq_false hname]

/-- **Documents that close are written one after the other under new names.** -/
theorem writeDocuments_eq {o : Options} {d : DeclarationSet} {p : Page} (hlevel : p.level = 0)
    (hlines : p.lines = []) {whichs : List Document}
    (h : ∀ which ∈ whichs, Closes (document o d which)) (hwhichs : whichs.Nodup)
    (hnew : ∀ which ∈ whichs, p.documents.contains (o.documentName which.word) = false) :
    p.writeDocuments o d whichs =
      ({ p with documents := ⟨p.documents.entries ++ whichs.map (documentEntry o d)⟩ }, .ok ()) := by
  induction whichs generalizing p with
  | nil => rw [Page.writeDocuments, List.map_nil, List.append_nil]
  | cons which rest ih =>
      obtain ⟨hdocument, hothers⟩ := List.forall_mem_cons.mp h
      obtain ⟨hwhich, hrest⟩ := List.nodup_cons.mp hwhichs
      rw [Page.writeDocuments, hdocument.result, complete_apply hlevel hlines hdocument.level
        (hnew which List.mem_cons_self)]
      dsimp only
      rw [ih]
      · rw [List.append_assoc, List.map_cons]
        rfl
      · exact hlevel
      · exact hlines
      · exact hothers
      · exact hrest
      · intro other hother
        -- the name that was written is that of another document
        have hne : o.documentName which.word ≠ o.documentName other.word := fun hname =>
          hwhich (documentName_injective o hname ▸ hother)
        have hold := hnew other (List.mem_cons_of_mem _ hother)
        rw [OrderedMap.contains, OrderedMap.keys, List.any_map] at hold ⊢
        rw [List.any_append, hold, List.any_cons]
        simpa using hne

theorem documents_of_closes {o : Options} {d : DeclarationSet}
    (h : ∀ which ∈ Document.all, Closes (document o d which)) :
    documents o d = .ok ⟨Document.all.map (documentEntry o d)⟩ := by
  have hwritten : Page.writeDocuments {} o d Document.all = _ :=
    writeDocuments_eq rfl rfl h (by decide) fun _ _ => rfl
  unfold documents
  rw [hwritten]
  rfl

/-- Where every document is complete there are six of them, in their order. -/
theorem documents_of_completes {o : Options} {d : DeclarationSet}
    (h : ∀ which, Completes (document o d which)) :
    documents o d = .ok ⟨Document.all.map (documentEntry o d)⟩ :=
  documents_of_closes fun which _ => (h which).closes

/-- **Finished declarations have six documents, in their order.** -/
theorem documents_eq {d : DeclarationSet} (h : Finish.Finished d) (o : Options) :
    documents o d = .ok ⟨Document.all.map (documentEntry o d)⟩ :=
  documents_of_completes (document_completes h o)

end Render

/-! ## Bindings -/

/-- The documents of a header are those of its finished declarations, if it has these. -/
theorem documents_bindingOf (o : Options) (d : Header.Definitions) : (bindingOf o d).documents =
    ((finishedOf o d).mapError .misfit).bind fun final =>
      (Render.documents o final).mapError .render := by
  unfold bindingOf finishedOf aliasesOf
  dsimp only
  cases (Build.declarations d (.start o)).result with
  | error m => rfl
  | ok built =>
      dsimp only
      rw [documentsOf, Traced.result_bind, Traced.result_report, ok_bind, Traced.result_bind,
        Traced.result_mapError, ok_bind]
      cases (Finish.finish o (Build.declarations d (.start o)).builder.aliases built).result with
      | error m => rfl
      | ok final => rfl

theorem bindingOf_of_finished {o : Options} {d : Header.Definitions} {final : DeclarationSet}
    (h : finishedOf o d = .ok final) :
    (bindingOf o d).documents = (Render.documents o final).mapError .render := by
  rw [documents_bindingOf, h]
  rfl

theorem finishedOf_finished {d : Header.Definitions} (h : d.WellTyped) (o : Options) :
    ∃ final, finishedOf o d = .ok final ∧ Finish.Finished final := by
  have hwritable := Build.builtDeclarations_writable h (.start o)
  have haliases : (aliasesOf o d).AllWritable := by
    rw [aliasesOf_eq h]
    exact Build.builtAliases_writable h fun e he => absurd he (by simp [Build.Builder.start,
      EmptyCollection.emptyCollection, OrderedMap.empty])
  exact ⟨_, finishedOf_eq h o, Finish.declarations_finished hwritable o haliases⟩

/-- The documents of a well-typed header are those of its finished declarations. -/
theorem documents_of_finished {d : Header.Definitions} (h : d.WellTyped) {o : Options}
    {final : DeclarationSet} (hfinal : finishedOf o d = .ok final) :
    (bindingOf o d).documents = .ok ⟨Render.Document.all.map (Render.documentEntry o final)⟩ := by
  obtain ⟨final', hfinal', hfinished⟩ := finishedOf_finished h o
  rw [hfinal] at hfinal'
  injection hfinal' with hsame
  rw [bindingOf_of_finished hfinal, Render.documents_eq (hsame ▸ hfinished)]
  rfl

/-- **A well-typed header has a binding.** -/
theorem bindingOf_eq_ok {d : Header.Definitions} (h : d.WellTyped) (o : Options) :
    ∃ docs, (bindingOf o d).documents = .ok docs := by
  obtain ⟨final, hfinal, hfinished⟩ := finishedOf_finished h o
  rw [bindingOf_of_finished hfinal, Render.documents_eq hfinished]
  exact ⟨_, rfl⟩

end NativeBindings
