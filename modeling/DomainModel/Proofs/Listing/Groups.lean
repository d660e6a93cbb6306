import DomainModel.Listing
import Mathlib.Algebra.Ring.Nat
import Mathlib.Data.Finset.Card
import Mathlib.Data.List.Induction

namespace DomainModel

namespace Listing

def messages (listing : Listing) : List String := listing.groups.map (·.message)

structure Regroups (listing : Listing) (ds : List Diagnostic) : Prop where
  seen : ∀ message, message ∈ listing.messages ↔ message ∈ ds.map (·.message)
  ordered :
    listing.messages.Pairwise fun message other =>
      (ds.map (·.message)).idxOf message < (ds.map (·.message)).idxOf other
  entries : ∀ group ∈ listing.groups,
    group.entries = (ds.filter (·.message = group.message)).map entry

theorem Regroups.nodup {listing : Listing} {ds : List Diagnostic} (h : listing.Regroups ds) :
    listing.messages.Nodup := by
  apply h.ordered.imp
  intro message other before same
  rw [same] at before
  exact Nat.lt_irrefl _ before

theorem map_message_addTo (message : String) (entry : ListingEntry) (groups : List ListingGroup) :
    (addTo message entry groups).map (·.message) =
      if message ∈ groups.map (·.message) then groups.map (·.message)
      else groups.map (·.message) ++ [message] := by
  induction groups with
  | nil => rfl
  | cons group groups ih =>
    rw [addTo, List.map_cons]
    by_cases same : group.message = message
    . rw [if_pos same, if_pos (by simp [same])]
      rfl
    . rw [if_neg same, List.map_cons, ih]
      by_cases known : message ∈ groups.map (·.message)
      . rw [if_pos known, if_pos (List.mem_cons_of_mem _ known)]
      . rw [if_neg known, if_neg, List.cons_append]
        rw [List.mem_cons, not_or]
        exact ⟨Ne.symm same, known⟩

theorem mem_addTo {message : String} {entry : ListingEntry} {groups : List ListingGroup}
    (distinct : (groups.map (·.message)).Nodup) {group : ListingGroup}
    (mem : group ∈ addTo message entry groups) :
    group.message ≠ message ∧ group ∈ groups ∨
    ∃ earlier,
      group = ⟨message, earlier ++ [entry]⟩ ∧
      (⟨message, earlier⟩ ∈ groups ∨ message ∉ groups.map (·.message) ∧ earlier = []) := by
  induction groups with
  | nil =>
    rw [addTo, List.mem_singleton] at mem
    exact .inr ⟨[], mem, .inr ⟨List.not_mem_nil, rfl⟩⟩
  | cons first groups ih =>
    rw [List.map_cons, List.nodup_cons] at distinct
    rw [addTo] at mem
    split at mem
    . next same =>
      rw [List.mem_cons] at mem
      rcases mem with rfl | mem
      . rw [← same]
        exact .inr ⟨first.entries, rfl, .inl List.mem_cons_self⟩
      . left
        refine ⟨?_, List.mem_cons_of_mem _ mem⟩
        intro again
        apply distinct.1
        rw [same, ← again]
        exact List.mem_map_of_mem mem
    . next other =>
      rw [List.mem_cons] at mem
      rcases mem with rfl | mem
      . exact .inl ⟨other, List.mem_cons_self⟩
      . rcases ih distinct.2 mem with ⟨apart, inside⟩ | ⟨earlier, made, found | ⟨new, none⟩⟩
        . exact .inl ⟨apart, List.mem_cons_of_mem _ inside⟩
        . exact .inr ⟨earlier, made, .inl (List.mem_cons_of_mem _ found)⟩
        . refine .inr ⟨earlier, made, .inr ⟨?_, none⟩⟩
          rw [List.map_cons, List.mem_cons, not_or]
          exact ⟨Ne.symm other, new⟩

theorem messages_add (listing : Listing) (d : Diagnostic) :
    (listing.add d).messages =
      if d.message ∈ listing.messages then listing.messages
      else listing.messages ++ [d.message] := by
  apply map_message_addTo

theorem Regroups.seen_add {listing : Listing} {ds : List Diagnostic} (h : listing.Regroups ds)
    (d : Diagnostic) (message : String) :
    message ∈ (listing.add d).messages ↔ message ∈ (ds ++ [d]).map (·.message) := by
  rw [messages_add, List.map_append, List.mem_append, ← h.seen]
  split
  . next known =>
    simp only [List.map_cons, List.map_nil, List.mem_singleton]
    constructor
    . exact .inl
    . rintro (before | rfl)
      . exact before
      . exact known
  . rw [List.mem_append]
    rfl

theorem Regroups.ordered_add {listing : Listing} {ds : List Diagnostic} (h : listing.Regroups ds)
    (d : Diagnostic) :
    (listing.add d).messages.Pairwise fun message other =>
      ((ds ++ [d]).map (·.message)).idxOf message < ((ds ++ [d]).map (·.message)).idxOf other := by
  rw [List.map_append]
  -- What has come up before comes up first where it did.
  have before : ∀ message ∈ listing.messages,
      (ds.map (·.message) ++ [d].map (·.message)).idxOf message =
        (ds.map (·.message)).idxOf message := by
    intro message mem
    rw [h.seen] at mem
    exact List.idxOf_append_of_mem mem
  have kept : listing.messages.Pairwise fun message other =>
      (ds.map (·.message) ++ [d].map (·.message)).idxOf message <
        (ds.map (·.message) ++ [d].map (·.message)).idxOf other := by
    apply h.ordered.imp_of_mem
    intro message other mem mem' lt
    rw [before message mem, before other mem']
    exact lt
  rw [messages_add]
  split
  . exact kept
  . next new =>
    rw [List.pairwise_append]
    refine ⟨kept, List.pairwise_singleton _ _, ?_⟩
    intro message mem last isLast
    rw [List.mem_singleton] at isLast
    rw [before message mem, isLast]
    rw [h.seen] at mem new
    rw [List.idxOf_append_of_notMem new]
    exact Nat.lt_of_lt_of_le (List.idxOf_lt_length_of_mem mem) (Nat.le_add_right _ _)

theorem Regroups.entries_add {listing : Listing} {ds : List Diagnostic} (h : listing.Regroups ds)
    (d : Diagnostic) : ∀ group ∈ (listing.add d).groups,
      group.entries = ((ds ++ [d]).filter (·.message = group.message)).map entry := by
  intro group mem
  rw [List.filter_append, List.map_append]
  rcases mem_addTo h.nodup mem with ⟨other, mem⟩ | ⟨earlier, rfl, known⟩
  . rw [h.entries group mem]
    simp [Ne.symm other]
  . have before : earlier = (ds.filter (·.message = d.message)).map entry := by
      rcases known with mem | ⟨new, rfl⟩
      . exact h.entries _ mem
      . rw [eq_comm, List.map_eq_nil_iff, List.filter_eq_nil_iff]
        intro other mem same
        rw [decide_eq_true_iff] at same
        apply new
        apply (h.seen d.message).mpr
        rw [← same]
        exact List.mem_map_of_mem mem
    rw [before]
    simp

theorem Regroups.add {listing : Listing} {ds : List Diagnostic} (h : listing.Regroups ds)
    (d : Diagnostic) : (listing.add d).Regroups (ds ++ [d]) where
  seen := h.seen_add d
  ordered := h.ordered_add d
  entries := h.entries_add d

theorem ofDiagnostics_concat (ds : List Diagnostic) (d : Diagnostic) :
    ofDiagnostics (ds ++ [d]) = (ofDiagnostics ds).add d := by
  apply List.foldl_concat

theorem regroups_ofDiagnostics (ds : List Diagnostic) : (ofDiagnostics ds).Regroups ds := by
  induction ds using List.reverseRecOn with
  | nil =>
    refine ⟨?_, List.Pairwise.nil, ?_⟩
    . intro message
      rfl
    . intro group mem
      cases mem
  | append_singleton ds d ih =>
    rw [ofDiagnostics_concat]
    exact ih.add d

theorem entryCount_eq (listing : Listing) :
    listing.entryCount = (listing.groups.map (·.entries.length)).sum := by
  unfold entryCount
  rw [List.sum_eq_foldr, List.foldr_map]

theorem entryCount_add (listing : Listing) (d : Diagnostic) :
    (listing.add d).entryCount = listing.entryCount + 1 := by
  rcases listing with ⟨groups⟩
  rw [add, entryCount_eq, entryCount_eq]
  dsimp only
  induction groups with
  | nil => rfl
  | cons group groups ih =>
    rw [addTo]
    split
    . simp only [List.map_cons, List.sum_cons, List.length_append, List.length_singleton]
      omega
    . simp only [List.map_cons, List.sum_cons]
      omega

theorem entryCount_ofDiagnostics (ds : List Diagnostic) :
    (ofDiagnostics ds).entryCount = ds.length := by
  induction ds using List.reverseRecOn with
  | nil => rfl
  | append_singleton ds d ih =>
    rw [ofDiagnostics_concat, entryCount_add, ih, List.length_append, List.length_singleton]

theorem Regroups.size_eq {listing : Listing} {ds : List Diagnostic} (h : listing.Regroups ds) :
    listing.size = (ds.map (·.message)).toFinset.card := by
  have same : (ds.map (·.message)).toFinset = listing.messages.toFinset := by
    ext message
    rw [List.mem_toFinset, List.mem_toFinset, h.seen]
  rw [same, List.toFinset_card_of_nodup h.nodup]
  exact (List.length_map _).symm

theorem Regroups.exists_of_mem {listing : Listing} {ds : List Diagnostic} (h : listing.Regroups ds)
    {group : ListingGroup} (mem : group ∈ listing.groups) : ∃ d ∈ ds, d.message = group.message := by
  have known : group.message ∈ listing.messages := List.mem_map_of_mem mem
  rw [h.seen, List.mem_map] at known
  exact known

theorem Regroups.entries_ne_nil {listing : Listing} {ds : List Diagnostic}
    (h : listing.Regroups ds) : ∀ group ∈ listing.groups, group.entries ≠ [] := by
  intro group mem
  rcases h.exists_of_mem mem with ⟨d, inside, same⟩
  rw [h.entries group mem]
  apply List.ne_nil_of_mem
  apply List.mem_map_of_mem
  rw [List.mem_filter]
  exact ⟨inside, by simpa using same⟩

end Listing

end DomainModel
