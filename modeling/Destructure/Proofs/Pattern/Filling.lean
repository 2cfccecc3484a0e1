import Destructure.Proofs.Pattern.Locations

/-!
The table that is filled in place. Adding a pattern leaves the nodes that are there alone and puts
those of the pattern behind them, linked among each other as they are in a table that is made from
the outline; siblings come unlinked and are linked one pair after another.

Main statement: `Tree.fill_eq_build`.
-/

namespace Destructure

variable {α : Type}

namespace Tree

open Outline (number numberAll)

variable {defaultGreed : Greed}

theorem modify_append_cons {Element : Type} (front rest : List Element) (element : Element)
    (change : Element → Element) :
    (front ++ element :: rest).modify front.length change = front ++ change element :: rest := by
  induction front with
  | nil => rfl
  | cons first front induction => simpa using induction

theorem addEntries_eq (defaultGreed : Greed) (entries : List (Value α × Pattern α)) :
    addEntries defaultGreed entries = addAll defaultGreed (entries.map Prod.snd) := by
  induction entries with
  | nil => rfl
  | cons entry entries induction =>
      funext above nodes
      rw [addEntries, induction]
      rfl

theorem add_eq (defaultGreed : Greed) (pattern : Pattern α) (parent : Option Nat) :
    add defaultGreed pattern parent =
      addNode (pattern.nodeKind defaultGreed) parent (addAll defaultGreed pattern.parts) := by
  cases pattern with
  | keyed shape entries =>
      rw [add, addEntries_eq]
      rfl
  | _ => rfl

/-- The root of a pattern and what is behind it, which does not depend on its siblings. -/
theorem link_number (parent previous next : Option Nat) (pattern : Pattern α) (first : Nat) :
    link parent previous next (number defaultGreed pattern first).1 =
      ⟨pattern.nodeKind defaultGreed, parent,
          (numberAll defaultGreed pattern.parts (first + 1)).1.map Outline.id, next, previous⟩ ::
        linkRow first (pattern.nodeKind defaultGreed).isOrdered none
          (numberAll defaultGreed pattern.parts (first + 1)).1 := by
  rw [Outline.number_eq, link]

/-- Only the root is changed when a pattern gets a sibling behind it. -/
theorem modify_link_next (parent previous : Option Nat) (pattern : Pattern α)
    (front rest : List (Node α)) (behind : Nat) :
    (front ++ (link parent previous none (number defaultGreed pattern front.length).1 ++
        rest)).modify front.length (fun node => { node with next := some behind }) =
      front ++ (link parent previous (some behind) (number defaultGreed pattern front.length).1 ++
        rest) := by
  rw [link_number, link_number, List.cons_append, modify_append_cons, List.cons_append]

theorem modify_link_previous (parent next : Option Nat) (pattern : Pattern α)
    (front rest : List (Node α)) (before : Nat) :
    (front ++ (link parent none next (number defaultGreed pattern front.length).1 ++
        rest)).modify front.length (fun node => { node with previous := some before }) =
      front ++ (link parent (some before) next (number defaultGreed pattern front.length).1 ++
        rest) := by
  rw [link_number, link_number, List.cons_append, modify_append_cons, List.cons_append]

theorem length_append_link (parent previous next : Option Nat) (pattern : Pattern α)
    (front : List (Node α)) :
    (front ++ link parent previous next (number defaultGreed pattern front.length).1).length =
      (number defaultGreed pattern front.length).2 := by
  rw [List.length_append, length_link.item, Outline.length_number, Outline.next_number]

/-- Siblings are linked from one on that is linked with those before it. -/
theorem toList_linkSiblings (above : Nat) (item : Pattern α) (items : List (Pattern α))
    (previous : Option Nat) (front : List (Node α)) (nodes : Array (Node α))
    (filled : nodes.toList = front ++
      (link (some above) previous none (number defaultGreed item front.length).1 ++
        linkRow above false none
          (numberAll defaultGreed items (number defaultGreed item front.length).2).1)) :
    (linkSiblings ((numberAll defaultGreed (item :: items) front.length).1.map Outline.id)
      nodes).toList =
      front ++ linkRow above true previous
        (numberAll defaultGreed (item :: items) front.length).1 := by
  induction items generalizing item previous front nodes with
  | nil => simpa [Outline.numberAll, linkSiblings, linkRow, leadingId?] using filled
  | cons next others induction =>
      let second := (number defaultGreed item front.length).2
      let first := link (some above) previous (some second)
        (number defaultGreed item front.length).1
      let linked := (nodes.modify front.length fun node => { node with next := some second }).modify
        second fun node => { node with previous := some front.length }
      have length : (front ++ first).length = second := length_append_link _ _ _ _ _
      have filled : linked.toList = (front ++ first) ++
          (link (some above) (some front.length) none
              (number defaultGreed next (front ++ first).length).1 ++
            linkRow above false none
              (numberAll defaultGreed others
                (number defaultGreed next (front ++ first).length).2).1) := by
        rw [Array.toList_modify, Array.toList_modify, filled, modify_link_next,
          ← List.append_assoc, Outline.numberAll_cons, linkRow, ← modify_link_previous, length]
        rfl
      have row := induction next (some front.length) (front ++ first) linked filled
      rw [length] at row
      rw [Outline.numberAll_cons, linkRow, ← List.append_assoc]
      simpa [Outline.numberAll_cons, linkSiblings, leadingId?] using row

theorem toList_linkSiblings_row (above : Nat) (patterns : List (Pattern α))
    (front : List (Node α)) (nodes : Array (Node α))
    (filled : nodes.toList =
      front ++ linkRow above false none (numberAll defaultGreed patterns front.length).1) :
    (linkSiblings ((numberAll defaultGreed patterns front.length).1.map Outline.id) nodes).toList =
      front ++ linkRow above true none (numberAll defaultGreed patterns front.length).1 := by
  cases patterns with
  | nil => exact filled
  | cons item items => exact toList_linkSiblings above item items none front nodes filled

/-- What adding does: the nodes of a pattern come behind those that are there, and siblings are not
linked yet. -/
theorem added (defaultGreed : Greed) : Pattern.Compositional (α := α)
    (fun pattern => ∀ parent nodes,
      (add defaultGreed pattern parent nodes).1 = nodes.size ∧
      (add defaultGreed pattern parent nodes).2.toList =
        nodes.toList ++ link parent none none (number defaultGreed pattern nodes.size).1)
    (fun patterns => ∀ parent nodes,
      (addAll defaultGreed patterns parent nodes).1 =
        (numberAll defaultGreed patterns nodes.size).1.map Outline.id ∧
      (addAll defaultGreed patterns parent nodes).2.toList =
        nodes.toList ++ linkRow parent false none
          (numberAll defaultGreed patterns nodes.size).1) where
  whole pattern ofParts parent nodes := by
    let kind := pattern.nodeKind defaultGreed
    let front := nodes.toList ++ [⟨kind, parent, [], none, none⟩]
    have length : front.length = nodes.size + 1 := by simp [front]
    obtain ⟨ids, filled⟩ := ofParts nodes.size (nodes.push ⟨kind, parent, [], none, none⟩)
    rw [Array.toList_push, Array.size_push, ← length] at filled
    rw [Array.size_push, ← length] at ids
    have linked : (if kind.isOrdered then linkSiblings
          ((numberAll defaultGreed pattern.parts front.length).1.map Outline.id)
          (addAll defaultGreed pattern.parts nodes.size
            (nodes.push ⟨kind, parent, [], none, none⟩)).2
        else (addAll defaultGreed pattern.parts nodes.size
          (nodes.push ⟨kind, parent, [], none, none⟩)).2).toList =
        front ++ linkRow nodes.size kind.isOrdered none
          (numberAll defaultGreed pattern.parts front.length).1 := by
      cases kind.isOrdered with
      | true => exact toList_linkSiblings_row nodes.size pattern.parts front _ filled
      | false => exact filled
    rw [add_eq]
    refine ⟨rfl, ?_⟩
    simp only [addNode]
    rw [ids, Array.toList_modify, linked, List.append_assoc, List.singleton_append,
      ← Array.length_toList, modify_append_cons, link_number, length, Array.length_toList]
  nil parent nodes := ⟨rfl, (List.append_nil _).symm⟩
  cons item items ofItem ofItems parent nodes := by
    obtain ⟨id, filled⟩ := ofItem (some parent) nodes
    have size : (add defaultGreed item (some parent) nodes).2.size =
        (number defaultGreed item nodes.size).2 := by
      rw [← Array.length_toList, filled]
      exact length_append_link _ _ _ _ nodes.toList
    obtain ⟨ids, others⟩ := ofItems parent (add defaultGreed item (some parent) nodes).2
    rw [size] at ids others
    rw [addAll, Outline.numberAll_cons]
    constructor
    · simp [id, ids]
    · rw [others, filled, List.append_assoc, linkRow]
      rfl

/-- Filling a table node by node gives the one that is made of the outline. -/
theorem fill_eq_build (pattern : Pattern α) (options : Options) :
    fill pattern options = build pattern options := by
  have filled := ((added options.defaultGreed).item pattern none #[]).2
  rw [fill, build, ofOutline, Outline.ofPattern]
  congr 1
  apply Array.toList_inj.mp
  simpa using filled

end Tree

end Destructure
