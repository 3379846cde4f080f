import EgressDns.Cache.Store
import EgressDns.Dns.Hickory
import EgressDns.Lib.Octets

/-!
# Names up to the case of their letters

What is left of names, requests and responses when every letter is written in lower case, and
what the ways in which the resolver normalises a name have in common: they read no more than that.
-/

namespace EgressDns

section Octets

theorem asciiLower_asciiLower (b : UInt8) : asciiLower (asciiLower b) = asciiLower b := by
  grind [asciiLower]

theorem asciiLower_eq_dot (b : UInt8) : (asciiLower b = 46) ↔ b = 46 := by
  grind [asciiLower]

variable (text : List UInt8)

theorem lower_lower : lower (lower text) = lower text := by
  unfold lower
  rw [List.map_map]
  exact List.map_congr_left fun b _ => asciiLower_asciiLower b

theorem lower_trimEndDots : lower (trimEndDots text) = trimEndDots (lower text) := by
  have hdot : (fun b => decide (asciiLower b = 46)) = fun b => decide (b = 46) := by
    funext b
    exact decide_eq_decide.mpr (asciiLower_eq_dot b)
  unfold lower trimEndDots
  rw [← List.map_reverse, List.dropWhile_map, List.map_reverse]
  change _ = (List.map asciiLower (List.dropWhile (fun b => decide (asciiLower b = 46)) _)).reverse
  rw [hdot]

theorem trimEndDots_eq : trimEndDots text = text.rdropWhile (· = 46) := rfl

theorem exists_trimmed_dots : ∃ k, text = trimEndDots text ++ List.replicate k 46 := by
  refine ⟨(text.rtakeWhile (· = 46)).length, ?_⟩
  have hdots : text.rtakeWhile (· = 46) =
      List.replicate (text.rtakeWhile (· = 46)).length 46 := by
    rw [List.eq_replicate_iff]
    refine ⟨rfl, ?_⟩
    intro b hb
    have hdot := List.mem_rtakeWhile_imp hb
    simpa using hdot
  rw [← hdots, trimEndDots_eq, List.rdropWhile_append_rtakeWhile]

theorem trimEndDots_append_dots (k : Nat) :
    trimEndDots (text ++ List.replicate k 46) = trimEndDots text := by
  unfold trimEndDots
  rw [List.reverse_append, List.reverse_replicate,
    List.dropWhile_append_of_pos fun b hb => decide_eq_true (List.eq_of_mem_replicate hb)]

theorem trimEndDots_trimEndDots : trimEndDots (trimEndDots text) = trimEndDots text := by
  obtain ⟨k, hk⟩ := exists_trimmed_dots text
  rw [← trimEndDots_append_dots (trimEndDots text) k, ← hk]

theorem getLast?_trimEndDots : (trimEndDots text).getLast? ≠ some 46 := by
  intro hlast
  have hne : trimEndDots text ≠ [] := by
    rintro hnil
    rw [hnil] at hlast
    cases hlast
  have hdot := List.rdropWhile_last_not (fun b => decide (b = 46)) text hne
  rw [List.getLast?_eq_some_getLast hne] at hlast
  exact hdot (decide_eq_true (Option.some.inj hlast))

theorem trimEndDots_of_last {text : List UInt8} (h : text.getLast? ≠ some 46) :
    trimEndDots text = text := by
  rw [trimEndDots_eq, List.rdropWhile_eq_self_iff]
  intro hne hdot
  rw [List.getLast?_eq_some_getLast hne] at h
  exact h (congrArg some (of_decide_eq_true hdot))

variable {a b : List UInt8}

theorem trimEndDots_append (h : trimEndDots b ≠ []) :
    trimEndDots (a ++ b) = a ++ trimEndDots b := by
  obtain ⟨k, hk⟩ := exists_trimmed_dots b
  have hlast := getLast?_trimEndDots b
  generalize trimEndDots b = t at h hk hlast
  rw [hk, ← List.append_assoc, trimEndDots_append_dots]
  apply trimEndDots_of_last
  rw [List.getLast?_append_of_ne_nil _ h]
  exact hlast

theorem lower_trimEndDots_congr (h : lower a = lower b) :
    lower (trimEndDots a) = lower (trimEndDots b) := by
  rw [lower_trimEndDots, lower_trimEndDots, h]

theorem normalizeName_congr (h : lower a = lower b) : normalizeName a = normalizeName b := by
  unfold normalizeName
  rw [h]

end Octets

section Plain

def Name.plain (n : Name) : Name := ⟨n.labels.map lower⟩

def Query.plain (q : Query) : Query := { q with name := q.name.plain }

def Record.plain (r : Record) : Record := { r with name := r.name.plain }

variable (msg : Message)

def Message.asked : Message := { msg with queries := msg.queries.map Query.plain }

def Message.plain : Message :=
  { msg with
    queries := msg.queries.map Query.plain
    answers := msg.answers.map Record.plain
    authorities := msg.authorities.map Record.plain
    additionals := msg.additionals.map Record.plain }

@[simp] theorem Name.plain_plain (n : Name) : n.plain.plain = n.plain := by
  simp only [Name.plain, List.map_map, Name.mk.injEq]
  exact List.map_congr_left fun label _ => lower_lower label

@[simp] theorem Query.plain_plain (q : Query) : q.plain.plain = q.plain := by
  simp only [Query.plain, Name.plain_plain]

@[simp] theorem Record.plain_plain (r : Record) : r.plain.plain = r.plain := by
  simp only [Record.plain, Name.plain_plain]

theorem map_plain_plain (queries : List Query) :
    (queries.map Query.plain).map Query.plain = queries.map Query.plain := by
  rw [List.map_map]
  exact List.map_congr_left fun q _ => q.plain_plain

theorem map_record_plain_plain (records : List Record) :
    (records.map Record.plain).map Record.plain = records.map Record.plain := by
  rw [List.map_map]
  exact List.map_congr_left fun r _ => r.plain_plain

@[simp] theorem Message.asked_asked : msg.asked.asked = msg.asked := by
  simp only [Message.asked, map_plain_plain]

@[simp] theorem Message.plain_plain : msg.plain.plain = msg.plain := by
  simp only [Message.plain, map_plain_plain, map_record_plain_plain]

theorem plain_of_queries {msg msg' : Message} {queries : List Query}
    (h : msg' = { msg with queries }) (hq : queries.map Query.plain = msg.queries.map Query.plain) :
    msg'.plain = msg.plain := by
  subst h
  simp only [Message.plain, hq]

end Plain

end EgressDns
