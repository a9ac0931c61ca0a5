import Mathlib.Data.List.Infix

/-!
# Relays

A relay reads from channels and writes to their other ends.  Its history is what it has got and sent
on each of them.

* `received`, `delivered`: what has come in on a channel, and what has gone out.
* `Faithful`: at no time has anything gone out that had not come in, nothing is left out and nothing
  changes its order; and what is held back is at most one buffer.
* `Faithful.pass`, `Faithful.cut`: passing something on, as a whole or in part.
-/

namespace Relay

variable {ι α : Type*}

/-- What a relay does. -/
inductive Event (ι α : Type*) where
  | got (channel : ι) (items : List α)
  | sent (channel : ι) (items : List α)

variable [DecidableEq ι]

/-- What an event brings in on a channel. -/
def Event.gotOn (channel : ι) : Event ι α → List α
  | .got c items => if c = channel then items else []
  | .sent _ _ => []

/-- What an event sends out on a channel. -/
def Event.sentOn (channel : ι) : Event ι α → List α
  | .got _ _ => []
  | .sent c items => if c = channel then items else []

/-- What has come in. -/
def received (channel : ι) (t : List (Event ι α)) : List α := t.flatMap (Event.gotOn channel)

/-- What has gone out. -/
def delivered (channel : ι) (t : List (Event ι α)) : List α := t.flatMap (Event.sentOn channel)

@[simp] theorem received_append (channel : ι) (t t' : List (Event ι α)) :
    received channel (t ++ t') = received channel t ++ received channel t' := List.flatMap_append

@[simp] theorem delivered_append (channel : ι) (t t' : List (Event ι α)) :
    delivered channel (t ++ t') = delivered channel t ++ delivered channel t' :=
  List.flatMap_append

/-- What goes out has come in, in this order, and at most `room` is held back. -/
def InOrder (room : ℕ) (t : List (Event ι α)) : Prop :=
  ∀ channel, delivered channel t <+: received channel t ∧
    (received channel t).length ≤ (delivered channel t).length + room

/-- It was so at any time. -/
def Faithful (room : ℕ) (t : List (Event ι α)) : Prop := ∀ t', t' <+: t → InOrder room t'

/-- Nothing is held back. -/
def Drained (t : List (Event ι α)) : Prop := ∀ channel, delivered channel t = received channel t

theorem drained_nil : Drained ([] : List (Event ι α)) := fun _ => rfl

variable {room : ℕ} {t : List (Event ι α)}

theorem Drained.inOrder (h : Drained t) : InOrder room t := fun channel => by
  rw [h channel]
  exact ⟨List.prefix_rfl, Nat.le_add_right _ _⟩

theorem faithful_nil : Faithful room ([] : List (Event ι α)) := fun t' ht' => by
  rw [List.prefix_nil.mp ht']
  exact drained_nil.inOrder

theorem Faithful.concat (h : Faithful room t) {e : Event ι α} (he : InOrder room (t ++ [e])) :
    Faithful room (t ++ [e]) := fun t' ht' => by
  rcases List.prefix_concat_iff.mp ht' with rfl | ht'
  · exact he
  · exact h t' ht'

/-- Something has come in, of which a part goes out. -/
theorem inOrder_part (h : Drained t) (channel : ι) {items part : List α}
    (hroom : items.length ≤ room) (hpart : part <+: items) :
    InOrder room (t ++ [.got channel items, .sent channel part]) := fun c => by
  by_cases hc : channel = c
  · subst hc
    have hle := hpart.length_le
    simp only [received_append, delivered_append, h channel, List.length_append]
    simp only [received, delivered, Event.gotOn, Event.sentOn, List.flatMap_cons,
      List.flatMap_nil, if_true, List.nil_append, List.append_nil]
    exact ⟨List.prefix_append_right_inj _ |>.mpr hpart, by omega⟩
  · simp only [received_append, delivered_append, h c, List.length_append]
    simp only [received, delivered, Event.gotOn, Event.sentOn, List.flatMap_cons,
      List.flatMap_nil, if_neg hc, List.append_nil]
    exact ⟨List.prefix_rfl, by omega⟩

/-- **A part is passed on.** -/
theorem Faithful.cut (h : Faithful room t) (hdrained : Drained t) (channel : ι)
    {items part : List α} (hroom : items.length ≤ room) (hpart : part <+: items) :
    Faithful room (t ++ [.got channel items, .sent channel part]) := by
  have hgot : InOrder room (t ++ [.got channel items]) := by
    intro c
    have hnone := inOrder_part hdrained channel hroom (List.nil_prefix (l := items)) c
    have hsame : delivered c [(.sent channel [] : Event ι α)] = [] := by
      simp [delivered, Event.sentOn]
    have hsplit : t ++ [Event.got channel items, .sent channel []] =
        t ++ [Event.got channel items] ++ [.sent channel []] := by simp
    rw [hsplit, received_append, delivered_append, hsame, List.append_nil] at hnone
    simpa [received, Event.gotOn] using hnone
  have hsplit : t ++ [Event.got channel items, .sent channel part] =
      t ++ [Event.got channel items] ++ [.sent channel part] := by simp
  have hall := inOrder_part hdrained channel hroom hpart
  rw [hsplit] at hall ⊢
  exact (h.concat hgot).concat hall

/-- **All of it is passed on**, and nothing is held back. -/
theorem Faithful.pass (h : Faithful room t) (hdrained : Drained t) (channel : ι) {items : List α}
    (hroom : items.length ≤ room) :
    Faithful room (t ++ [.got channel items, .sent channel items]) ∧
      Drained (t ++ [.got channel items, .sent channel items]) := by
  refine ⟨h.cut hdrained channel hroom List.prefix_rfl, fun c => ?_⟩
  rw [received_append, delivered_append, hdrained c]
  congr 1

end Relay
