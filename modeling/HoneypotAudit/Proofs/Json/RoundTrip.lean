import HoneypotAudit.Proofs.Json.Floats

/-!
# Writing and reading JSON

A value that lasts is read back from the text it is written in (`read_indentedOf`): its keys are set
once, its integers are not too long, its floating-point numbers are finite, and its texts are whole.
-/

namespace HoneypotAudit.Json

open HoneypotAudit.Text HoneypotAudit.Outcome

/-! ## Values that last -/

mutual

/-- A value that no document loses: keys are set once, integers are not too long, floating-point
numbers are finite, and texts have no halves of characters. -/
def Lasts : Json → Prop
  | .null => True
  | .bool _ => True
  | .int n => Integer.isWritable n = true
  | .float x => x.IsFinite
  | .str _ => True
  | .garbled _ => False
  | .arr items => ItemsLast items
  | .obj members => (members.map (·.1)).Nodup ∧ MembersLast members

/-- All items last. -/
def ItemsLast : List Json → Prop
  | [] => True
  | v :: rest => Lasts v ∧ ItemsLast rest

/-- All values of members last. -/
def MembersLast : List (String × Json) → Prop
  | [] => True
  | (_, v) :: rest => Lasts v ∧ MembersLast rest

end

lemma isGaps_indentation (depth : Nat) : IsGaps (indentation depth) := by
  intro c hc
  rw [indentation, List.mem_cons] at hc
  rcases hc with rfl | hc
  · decide
  · rw [List.eq_of_mem_replicate hc]
    decide

lemma isGaps_blank : IsGaps [' '] :=
  List.forall_mem_singleton.mpr rfl

lemma insert_of_not_mem {k : String} {ms : Members} (h : k ∉ ms.map (·.1)) (v : Json) :
    insert k v ms = ms ++ [(k, v)] := by
  induction ms with
  | nil => rfl
  | cons m ms ih =>
    obtain ⟨k', v'⟩ := m
    rw [List.map_cons, List.mem_cons, not_or] at h
    rw [insert, if_neg (Ne.symm h.1), ih h.2, List.cons_append]

/-- Keys that are all different are set one behind the other. -/
lemma foldl_insert_of_nodup {ms front : Members} (h : ((front ++ ms).map (·.1)).Nodup) :
    ms.foldl (fun ms m => insert m.1 m.2 ms) front = front ++ ms := by
  induction ms generalizing front with
  | nil => simp
  | cons m ms ih =>
    obtain ⟨k, v⟩ := m
    have hk : k ∉ front.map (·.1) := by
      rw [List.map_append, List.map_cons] at h
      exact fun hmem => (List.nodup_append.mp h).2.2 k hmem k List.mem_cons_self rfl
    rw [List.foldl_cons, insert_of_not_mem hk, ih (by simpa using h), List.append_assoc,
      List.singleton_append]

/-- Each key of an object counts once. -/
lemma ofPairs_of_nodup {ms : Members} (h : (ms.map (·.1)).Nodup) : ofPairs ms = ms := by
  have hall : ((([] : Members) ++ ms).map (·.1)).Nodup := h
  exact foldl_insert_of_nodup hall

variable {style : Style}

mutual

theorem readsAs_indentedOf (hstyle : style.EscapesControls) : ∀ (v : Json) (depth : Nat), Lasts v →
    ReadsAs (indentedOf style depth v) v
  | .null, _, _ => by
    rw [indentedOf]
    exact readsAs_null
  | .bool b, _, _ => by
    rw [indentedOf]
    exact readsAs_bool b
  | .int n, _, h => by
    rw [Lasts] at h
    rw [indentedOf]
    exact readsAs_int h
  | .float x, _, h => by
    rw [Lasts] at h
    rw [indentedOf]
    exact readsAs_floatText style h
  | .str s, _, _ => by
    rw [indentedOf]
    exact readsAs_str hstyle s
  | .garbled _, _, h => by
    rw [Lasts] at h
    exact h.elim
  | .arr [], _, _ => by
    rw [indentedOf]
    exact readsAs_emptyList
  | .arr (v :: rest), depth, h => by
    rw [Lasts] at h
    rw [indentedOf]
    have hitems := itemsText_indented hstyle (v :: rest) (depth + 1) (List.cons_ne_nil _ _) h
    exact hitems.readsAs (isGaps_indentation depth)
  | .obj [], _, _ => by
    rw [indentedOf]
    exact readsAs_emptyObject
  | .obj (m :: rest), depth, h => by
    rw [Lasts] at h
    rw [indentedOf]
    have hmembers := membersText_indented hstyle (m :: rest) (depth + 1) (List.cons_ne_nil _ _) h.2
    have hread := hmembers.readsAs (isGaps_indentation depth) hstyle
    rwa [ofPairs_of_nodup h.1] at hread

theorem itemsText_indented (hstyle : style.EscapesControls) : ∀ (vs : List Json) (depth : Nat),
    vs ≠ [] → ItemsLast vs → ItemsText (indentedItems style depth vs) vs
  | [], _, hne, _ => absurd rfl hne
  | [v], depth, _, h => by
    rw [ItemsLast] at h
    rw [indentedItems]
    exact .last (isGaps_indentation depth) (readsAs_indentedOf hstyle v depth h.1)
  | v :: w :: rest, depth, _, h => by
    rw [ItemsLast] at h
    rw [indentedItems, List.append_assoc]
    on_goal 2 => exact List.cons_ne_nil _ _
    exact .more (isGaps_indentation depth) (readsAs_indentedOf hstyle v depth h.1)
      (itemsText_indented hstyle (w :: rest) depth (List.cons_ne_nil _ _) h.2)

theorem membersText_indented (hstyle : style.EscapesControls) :
    ∀ (ms : List (String × Json)) (depth : Nat), ms ≠ [] → MembersLast ms →
    MembersText style (indentedMembers style depth ms) ms
  | [], _, hne, _ => absurd rfl hne
  | [(k, v)], depth, _, h => by
    rw [MembersLast] at h
    rw [indentedMembers, List.append_assoc]
    exact .last (isGaps_indentation depth)
      (.intro k isGaps_blank (readsAs_indentedOf hstyle v depth h.1))
  | (k, v) :: m :: rest, depth, _, h => by
    rw [MembersLast] at h
    rw [indentedMembers]
    on_goal 2 => exact List.cons_ne_nil _ _
    have hmember : MemberText style _ (k, v) :=
      .intro k isGaps_blank (readsAs_indentedOf hstyle v depth h.1)
    have hmembers := membersText_indented hstyle (m :: rest) depth (List.cons_ne_nil _ _) h.2
    simpa using MembersText.more (isGaps_indentation depth) hmember hmembers

end

/-- **What is written indented is read back.** -/
theorem read_indentedOf (hstyle : style.EscapesControls) {v : Json} (h : Lasts v) :
    read (indentedOf style 0 v) = .ok v :=
  (readsAs_indentedOf hstyle v 0 h).read_eq

end HoneypotAudit.Json
