import Mathlib.Data.List.Infix
import Mathlib.Tactic.Common

/-!
# Framing by markers

A stream in which a marker opens a frame and the first closing marker behind it
ends the frame; the rest is read as it comes.

1. **`receive`**: the reader, one element after the other.
2. **`not_infix_of_frame`**: a frame that ends has no closing marker inside.
3. **`receive_frame_iff`**: a frame around some content is received as this
   content and nothing else exactly when it has no closing marker inside.
-/

namespace Framing

universe u

variable {α : Type u} [DecidableEq α]

/-- What the reader reports: elements outside of any frame, the content of a frame,
and that of a frame that has not ended. -/
inductive Event (α : Type u) where
  | outside (l : List α)
  | frame (l : List α)
  | unfinished (l : List α)
deriving DecidableEq, Repr

/-- The elements outside, if there are any. -/
def flush (acc : List α) : List (Event α) := if acc = [] then [] else [.outside acc]

/-- Reads a stream, inside of a frame or not; `skip` elements belong to a marker
that has been seen, and `acc` has been read since. -/
def read (start stop : List α) : Bool → Nat → List α → List α → List (Event α)
  | inside, skip + 1, acc, _ :: l => read start stop inside skip acc l
  | false, 0, acc, a :: l =>
      if start <+: a :: l then flush acc ++ read start stop true (start.length - 1) [] l
      else read start stop false 0 (acc ++ [a]) l
  | true, 0, acc, a :: l =>
      if stop <+: a :: l then .frame acc :: read start stop false (stop.length - 1) [] l
      else read start stop true 0 (acc ++ [a]) l
  | false, _, acc, [] => flush acc
  | true, _, acc, [] => [.unfinished acc]

/-- Reads a whole stream. -/
def receive (start stop l : List α) : List (Event α) := read start stop false 0 [] l

variable {start stop : List α}

theorem read_skip (inside : Bool) (m acc l : List α) :
    read start stop inside m.length acc (m ++ l) = read start stop inside 0 acc l := by
  induction m with
  | nil => rfl
  | cons a m ih => exact ih

/-- A marker opens a frame. -/
theorem receive_start (hstart : start ≠ []) (l : List α) :
    receive start stop (start ++ l) = read start stop true 0 [] l := by
  cases start with
  | nil => exact absurd rfl hstart
  | cons a t =>
      have hbegins : a :: t <+: a :: (t ++ l) := List.prefix_append (a :: t) l
      show read (a :: t) stop false 0 [] (a :: (t ++ l)) = _
      rw [read, if_pos hbegins]
      exact read_skip true t [] l

/-- The content of a frame that ends has no closing marker inside. -/
theorem not_infix_of_frame (hstop : stop ≠ []) {acc l x : List α} {es : List (Event α)}
    (hread : read start stop true 0 acc l = .frame x :: es) :
    ∃ p, x = acc ++ p ∧ p <+: l ∧ ¬ stop <:+: p := by
  induction l generalizing acc with
  | nil => cases hread
  | cons a l ih =>
      rw [read] at hread
      split at hread
      · simp only [List.cons.injEq, Event.frame.injEq] at hread
        exact ⟨[], by simp [hread.1], List.nil_prefix, by simpa using hstop⟩
      · rename_i hnot
        rcases ih hread with ⟨p, hx, hp, hinfix⟩
        refine ⟨a :: p, by simp [hx], List.cons_prefix_cons.2 ⟨rfl, hp⟩, ?_⟩
        rw [List.infix_cons_iff]
        rintro (hbegins | hin)
        · exact hnot (hbegins.trans (List.cons_prefix_cons.2 ⟨rfl, hp⟩))
        · exact hinfix hin

omit [DecidableEq α] in
/-- A marker whose first element occurs in it once does not begin inside of some
content and end in the marker behind it. -/
theorem prefix_of_prefix_append {a : α} {t c l : List α} (ha : a ∉ t) (hc : c ≠ [])
    (hbegins : a :: t <+: c ++ a :: l) : a :: t <+: c := by
  rcases Nat.lt_or_ge c.length (a :: t).length with hlt | hge
  · -- the first element of the marker behind stands in the tail of this one
    exfalso
    apply ha
    rcases hbegins with ⟨r, hr⟩
    cases c with
    | nil => exact absurd rfl hc
    | cons b c =>
        have hat := congrArg (·[(b :: c).length]?) hr
        rw [List.getElem?_append_left hlt, List.getElem?_append_right (Nat.le_refl _),
          Nat.sub_self, List.length_cons, List.getElem?_cons_succ, List.getElem?_cons_zero] at hat
        exact List.mem_of_getElem? hat
  · exact List.prefix_of_prefix_length_le hbegins (List.prefix_append c (a :: l)) hge

variable (start) in
/-- Content without a closing marker is read up to the marker behind it. -/
theorem read_frame {a : α} {t : List α} (ha : a ∉ t) {c : List α} (hc : ¬ a :: t <:+: c)
    (acc l : List α) :
    read start (a :: t) true 0 acc (c ++ a :: (t ++ l)) =
      .frame (acc ++ c) :: read start (a :: t) false 0 [] l := by
  induction c generalizing acc with
  | nil =>
      have hbegins : a :: t <+: a :: (t ++ l) := List.prefix_append (a :: t) l
      rw [List.nil_append, List.append_nil, read, if_pos hbegins]
      exact congrArg _ (read_skip false t [] l)
  | cons b c ih =>
      rw [List.infix_cons_iff, not_or] at hc
      have hnot : ¬ a :: t <+: b :: (c ++ a :: (t ++ l)) := fun hbegins =>
        hc.1 (prefix_of_prefix_append ha (List.cons_ne_nil b c) hbegins)
      rw [List.cons_append, read, if_neg hnot, ih hc.2, List.append_assoc, List.singleton_append]

variable (start) in
/-- A frame is received as its content and nothing else exactly when this has no
closing marker inside. -/
theorem receive_frame_iff {a : α} {t : List α} (hstart : start ≠ []) (ha : a ∉ t) (c : List α) :
    receive start (a :: t) (start ++ c ++ a :: t) = [.frame c] ↔ ¬ a :: t <:+: c := by
  rw [List.append_assoc, receive_start hstart]
  constructor
  · intro hread
    rcases not_infix_of_frame (List.cons_ne_nil a t) hread with ⟨p, hp, -, hinfix⟩
    rw [List.nil_append] at hp
    rw [hp]
    exact hinfix
  · intro hc
    have hread := read_frame start ha hc [] []
    rw [List.append_nil, List.nil_append] at hread
    exact hread

end Framing
