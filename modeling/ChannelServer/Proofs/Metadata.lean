import ChannelServer.Channel.Metadata
import ChannelServer.Proofs.Flags

/-!
# Valid metadata

The check of metadata as one condition on the texts and one on the capacity.  Every change of a
channel that an operation makes is then seen to keep metadata valid, and a new text is refused for
itself alone.
-/

namespace ChannelServer.Metadata

theorem unwritable?_eq_none {info : Metadata} :
    info.unwritable? = none ↔ ∀ field, Writable (info.text field) := by
  simp only [unwritable?, List.find?_eq_none, decide_eq_true_eq, Decidable.not_not]
  constructor
  · intro h field
    exact h field (by cases field <;> simp)
  · exact fun h field _ => h field

/-- Metadata is valid if no text has a NUL byte and only a default channel is unbounded. -/
theorem check_eq_ok {info : Metadata} :
    info.check = .ok () ↔ (∀ field, Writable (info.text field)) ∧
      (info.capacity = .unbounded → info.flags.has .default = true) := by
  rw [← unwritable?_eq_none, check]
  cases info.unwritable? with
  | some field => simp
  | none => simp

/-- The flags matter to the check only as far as the default flag goes. -/
theorem check_setFlags {info : Metadata} {flags : Flags} (h : info.check = .ok ())
    (hdefault : info.flags.has .default = true → flags.has .default = true) :
    { info with flags }.check = .ok () := by
  rw [check_eq_ok] at h ⊢
  obtain ⟨htexts, hcapacity⟩ := h
  refine ⟨fun field => ?_, fun hunbounded => hdefault (hcapacity hunbounded)⟩
  cases field
  · exact htexts .name
  · exact htexts .topic
  · exact htexts .description

/-! ## Replacing a text -/

theorem text_setText (info : Metadata) (field field' : Field) (text : String) :
    (info.setText field text).text field' = if field' = field then text else info.text field' := by
  cases field <;> cases field' <;> rfl

/-- Valid metadata with another text is refused for a NUL byte in that text and for nothing else. -/
theorem check_setText {info : Metadata} (h : info.check = .ok ()) (field : Field) (text : String) :
    (info.setText field text).check =
      if Writable text then .ok () else .error (.badArgument (.nulInField field)) := by
  obtain ⟨htexts, hcapacity⟩ := check_eq_ok.mp h
  have hrest : (info.setText field text).capacity = info.capacity ∧
      (info.setText field text).flags = info.flags := by
    cases field <;> exact ⟨rfl, rfl⟩
  split
  · rename_i hwritable
    refine check_eq_ok.mpr ⟨fun field' => ?_, ?_⟩
    · rw [text_setText]
      split
      · exact hwritable
      · exact htexts field'
    · rw [hrest.1, hrest.2]
      exact hcapacity
  · rename_i hunwritable
    have hfirst : (info.setText field text).unwritable? = some field := by
      have hread (field' : Field) (hne : field' ≠ field) :
          Writable ((info.setText field text).text field') := by
        rw [text_setText, if_neg hne]
        exact htexts field'
      have hself : ¬ Writable ((info.setText field text).text field) := by
        rwa [text_setText, if_pos rfl]
      unfold unwritable?
      cases field with
      | name => rw [List.find?_cons_of_pos (by simpa using hself)]
      | topic =>
          rw [List.find?_cons_of_neg (by simpa using hread .name (by decide)),
            List.find?_cons_of_pos (by simpa using hself)]
      | description =>
          rw [List.find?_cons_of_neg (by simpa using hread .name (by decide)),
            List.find?_cons_of_neg (by simpa using hread .topic (by decide)),
            List.find?_cons_of_pos (by simpa using hself)]
    rw [check, hfirst]

end ChannelServer.Metadata
