import TokenHighlight.HintedError

/-!
# Ways of attaching hints

A hint is attached to an error in place, by building the error with one more hint, or to a result
that fails with the error.  Each of these steps puts the hint behind those that are there
(`Attachment.apply_eq`, `attach_eq`), so it does not matter in which way the hints of a list are
attached (`attachments_agree`).
-/

namespace TokenHighlight

namespace HintedError

/-- A hint and the way in which it is attached to an error. -/
inductive Attachment where
  /-- A state update of the error. -/
  | update (hint : String)
  /-- A new error with one more hint. -/
  | extend (hint : String)

namespace Attachment

/-- The hint that is attached. -/
def text : Attachment → String
  | update h => h
  | extend h => h

/-- The error after the hint has been attached. -/
def apply (e : HintedError) : Attachment → HintedError
  | update h => ((hint h).run e).2
  | extend h => e.withHint h

theorem apply_eq (e : HintedError) (a : Attachment) : apply e a = e.withHint a.text := by
  cases a with
  | update h => rfl
  | extend h => rfl

end Attachment

/-! ## Errors -/

/-- Hints that are attached later come behind the earlier ones. -/
theorem withHints_eq (e : HintedError) (hs : List String) :
    e.withHints hs = ⟨e.message, e.hints ++ hs⟩ := by
  induction hs generalizing e with
  | nil =>
      show e = ⟨e.message, e.hints ++ []⟩
      rw [List.append_nil]
  | cons h hs ih =>
      calc e.withHints (h :: hs) = (e.withHint h).withHints hs := rfl
        _ = ⟨e.message, (e.hints ++ [h]) ++ hs⟩ := ih (e.withHint h)
        _ = ⟨e.message, e.hints ++ h :: hs⟩ := by rw [List.append_assoc, List.singleton_append]

theorem foldl_apply (e : HintedError) (as : List Attachment) :
    as.foldl Attachment.apply e = e.withHints (as.map Attachment.text) := by
  induction as generalizing e with
  | nil => rfl
  | cons a as ih =>
      rw [List.foldl_cons, ih, Attachment.apply_eq]
      rfl

/-! ## Results -/

section Results

variable {ε α : Type} [ToHintedError ε]

/-- The result with hints attached one by one, the first of them to the error as it is. -/
def attachAll (r : Except ε α) : List String → Except HintedError α
  | [] => ofResult r
  | h :: hs => hs.foldl attach (attach r h)

/-- A hint is attached to the report of the error, whether it was a report before or not. -/
theorem attach_eq (r : Except ε α) (h : String) :
    attach r h = (ofResult r).mapError fun e => e.withHint h := by
  cases r with
  | error e => rfl
  | ok a => rfl

theorem foldl_attach (r : Except HintedError α) (hs : List String) :
    hs.foldl attach r = r.mapError fun e => e.withHints hs := by
  induction hs generalizing r with
  | nil => cases r <;> rfl
  | cons h hs ih =>
      rw [List.foldl_cons, ih]
      cases r <;> rfl

theorem attachAll_eq (r : Except ε α) (hs : List String) :
    attachAll r hs = (ofResult r).mapError fun e => e.withHints hs := by
  cases hs with
  | nil => cases r <;> rfl
  | cons h hs =>
      rw [attachAll, foldl_attach, attach_eq]
      cases r <;> rfl

theorem attachAll_ok (a : α) (hs : List String) :
    attachAll (.ok a : Except ε α) hs = .ok a := by
  rw [attachAll_eq]
  rfl

theorem attachAll_error (cause : ε) (hs : List String) :
    attachAll (.error cause : Except ε α) hs =
      .error ⟨(ToHintedError.toHintedError cause).message,
        (ToHintedError.toHintedError cause).hints ++ hs⟩ := by
  rw [attachAll_eq, ← withHints_eq]
  rfl

end Results

/-! ## Display -/

theorem foldl_display (text : String) (hs : List String) :
    hs.foldl (fun text h => text ++ " (hint: " ++ h ++ ")") text =
      text ++ String.join (hs.map fun h => " (hint: " ++ h ++ ")") := by
  induction hs generalizing text with
  | nil => rw [List.foldl_nil, List.map_nil, String.join_nil, String.append_empty]
  | cons h hs ih =>
      rw [List.foldl_cons, ih, List.map_cons, String.join_cons]
      simp only [String.append_assoc]

/-- The hints of an error are the same in whatever way they are attached to a message: in place or
to new errors, in any mixture; to the report of the message; to a result that fails with the message
and then to the results of that.  They are in the order in which they were attached, and are shown
in this order.  Hints attached to any other failing result come behind those that its report has,
and results that do not fail stay as they are. -/
theorem attachments_agree (message : String) (hints : List String) :
    (∀ as : List Attachment, as.map Attachment.text = hints →
      as.foldl Attachment.apply (ofMessage message) = ⟨message, hints⟩) ∧
    (ToHintedError.toHintedError message).withHints hints = ⟨message, hints⟩ ∧
    (∀ α : Type,
      attachAll (.error message : Except String α) hints = .error ⟨message, hints⟩) ∧
    (∀ (ε α : Type) [ToHintedError ε] (cause : ε),
      attachAll (.error cause : Except ε α) hints =
        .error ⟨(ToHintedError.toHintedError cause).message,
          (ToHintedError.toHintedError cause).hints ++ hints⟩) ∧
    (∀ (ε α : Type) [ToHintedError ε] (a : α), attachAll (.ok a : Except ε α) hints = .ok a) ∧
    display ⟨message, hints⟩ =
      message ++ String.join (hints.map fun h => " (hint: " ++ h ++ ")") := by
  have hreport : (ofMessage message).withHints hints = ⟨message, hints⟩ := withHints_eq _ _
  refine ⟨?_, hreport, fun α => attachAll_error message hints,
    fun ε α _ cause => attachAll_error cause hints, fun ε α _ a => attachAll_ok a hints,
    foldl_display message hints⟩
  rintro as rfl
  rw [foldl_apply, hreport]

/-- Two hints, the first attached in place and the second to the error that this makes. -/
theorem attachments_agree_mixed :
    [Attachment.update "pass it with --tokens", .extend "see the table"].foldl Attachment.apply
        (ofMessage "unknown name `z`") =
      ⟨"unknown name `z`", ["pass it with --tokens", "see the table"]⟩ ∧
    display ⟨"unknown name `z`", ["pass it with --tokens", "see the table"]⟩ =
      "unknown name `z` (hint: pass it with --tokens) (hint: see the table)" := by
  obtain ⟨hmixed, -, -, -, -, hdisplay⟩ :=
    attachments_agree "unknown name `z`" ["pass it with --tokens", "see the table"]
  exact ⟨hmixed _ rfl, hdisplay.trans (by decide)⟩

end HintedError

end TokenHighlight
