import FlowAtlas.Proofs.Pattern.Matches
import FlowAtlas.Proofs.Pattern.Occurring
import FlowAtlas.Proofs.Text.Margins
import FlowAtlas.Proofs.Text.Separators
import FlowAtlas.Proofs.Text.Words
import FlowAtlas.Service.Flowchart
import Mathlib

/-! What is taken out of a reply: a part of it that begins with the heading of a flowchart. -/

namespace FlowAtlas

namespace Text

section parts

variable {needle : List Char}

theorem cutAt_parts (given : needle ≠ []) (s : List Char) : ∀ {before behind : List Char},
    cutAt needle s = some (before, behind) → s = before ++ (needle ++ behind) ∧ ¬needle <:+: before := by
  induction s with
  | nil =>
      intro before behind cut
      simp [cutAt, given] at cut
  | cons c rest ih =>
      intro before behind cut
      rw [cutAt] at cut
      split at cut
      · rename_i here
        obtain ⟨further, split⟩ := List.isPrefixOf_iff_prefix.mp here
        obtain ⟨rfl, rfl⟩ := Prod.mk.inj (Option.some.inj cut)
        rw [← split, List.drop_left]
        exact ⟨rfl, by simpa using given⟩
      · rename_i elsewhere
        obtain ⟨⟨front, later⟩, found, same⟩ := Option.map_eq_some_iff.mp cut
        obtain ⟨rfl, rfl⟩ := Prod.mk.inj same
        obtain ⟨rfl, free⟩ := ih found
        refine ⟨rfl, ?_⟩
        intro held
        rcases List.infix_cons_iff.mp held with begins | within
        · apply elsewhere
          apply List.isPrefixOf_iff_prefix.mpr
          exact begins.trans ((List.prefix_cons_inj c).mpr (List.prefix_append _ _))
        · exact free within

theorem cutAt_isSome {s : List Char} (held : needle <:+: s) : (cutAt needle s).isSome = true := by
  obtain ⟨front, back, rfl⟩ := held
  exact (contains_iff _).mpr ⟨front, back, List.append_assoc _ _ _⟩

variable (given : needle ≠ [])

include given

theorem infix_of_append_left {front s : List Char} (apart : ∀ c ∈ front, c ∉ needle) (held : needle <:+: front ++ s) :
    needle <:+: s := by
  obtain ⟨d, more, rfl⟩ := List.exists_cons_of_ne_nil given
  induction front with
  | nil => exact held
  | cons c front ih =>
      obtain ⟨other, others⟩ := List.forall_mem_cons.mp apart
      rcases List.infix_cons_iff.mp held with begins | within
      · obtain ⟨same, -⟩ := List.cons_prefix_cons.mp begins
        exact absurd (same ▸ List.mem_cons_self) other
      · exact ih others within

theorem infix_of_append_right {s back : List Char} (apart : ∀ c ∈ back, c ∉ needle) (held : needle <:+: s ++ back) :
    needle <:+: s := by
  have turned : needle.reverse <:+: back.reverse ++ s.reverse := by
    rw [← List.reverse_append]
    exact List.reverse_infix.mpr held
  apply List.reverse_infix.mp
  exact infix_of_append_left (by simpa using given) (by simpa using apart) turned

end parts

section trimming

theorem trimEnd_append_solid {front : List Char} (ends : EndsSolid front) (s : List Char) :
    trimEnd (front ++ s) = front ++ trimEnd s := by
  have kept : front.reverse.dropWhile isBlank = front.reverse := by
    have whole := congrArg List.reverse (trimEnd_solid ends)
    rwa [trimEnd, List.reverse_reverse] at whole
  rw [trimEnd, trimEnd, List.reverse_append, List.dropWhile_append]
  split
  · rename_i blank
    rw [List.isEmpty_iff.mp blank, kept]
    simp
  · simp

theorem trimEnd_begins (s : List Char) : trimEnd s <+: s := List.rdropWhile_prefix isBlank s

theorem endsSolid_append_trimEnd {front : List Char} (ends : EndsSolid front) (s : List Char) :
    EndsSolid (front ++ trimEnd s) := by
  by_cases nothing : trimEnd s = []
  · rwa [nothing, List.append_nil]
  · apply endsSolid_append
    refine ⟨_, List.getLast?_eq_getLast_of_ne_nil nothing, ?_⟩
    exact Bool.eq_false_iff.mpr (List.rdropWhile_last_not isBlank s nothing)

end trimming

end Text

namespace Flowchart

open Pattern Text

/-- The two words that a flowchart begins with, in any case, and the blanks between them. -/
def Heads (start : List Char) : Prop :=
  ∃ word gap sign, word.map Char.toLower = "flowchart".toList ∧ (gap ≠ [] ∧ ∀ c ∈ gap, isBlank c = true) ∧
    sign.map Char.toLower = "td".toList ∧ start = word ++ (gap ++ sign)

theorem spells_heading {start : List Char} : heading.Spells start ↔ Heads start := by
  have word : ∀ s : List Char, (caseless "flowchart").Spells s ↔ s.map Char.toLower = "flowchart".toList :=
    fun s => spells_caseless (by simp [caseVariants])
  have sign : ∀ s : List Char, (caseless "td").Spells s ↔ s.map Char.toLower = "td".toList :=
    fun s => spells_caseless (by simp [caseVariants])
  constructor
  · rintro ⟨first, _, named, ⟨gap, second, apart, directed, rfl⟩, rfl⟩
    exact ⟨first, gap, second, (word _).mp named, spells_run1.mp apart, (sign _).mp directed, rfl⟩
  · rintro ⟨first, gap, second, named, apart, directed, rfl⟩
    exact ⟨first, _, (word _).mpr named, ⟨gap, second, spells_run1.mpr apart, (sign _).mpr directed, rfl⟩, rfl⟩

theorem Heads.parts {start : List Char} (heads : Heads start) : ∃ word gap sign, start = word ++ (gap ++ sign) ∧
    word.length = 9 ∧ sign.length = 2 ∧ (∀ c ∈ word, c.isAlpha = true) ∧ (∀ c ∈ sign, c.isAlpha = true) ∧
    ∀ c ∈ gap, isBlank c = true := by
  obtain ⟨word, gap, sign, named, ⟨-, blank⟩, directed, rfl⟩ := heads
  have letters : ∀ {s : List Char} {small : String}, s.map Char.toLower = small.toList →
      (∀ c ∈ small.toList, c.isAlpha = true) → ∀ c ∈ s, c.isAlpha = true := by
    intro s small same alphabetic c member
    rw [← Char.isAlpha_toLower_eq_isAlpha]
    exact alphabetic _ (same ▸ List.mem_map_of_mem member)
  have first := congrArg List.length named
  have second := congrArg List.length directed
  rw [List.length_map] at first second
  exact ⟨word, gap, sign, rfl, first, second, letters named (by simp), letters directed (by simp), blank⟩

theorem isWord_of_isAlpha {c : Char} (letter : c.isAlpha = true) : isWord c = true :=
  isWord_of_alphanum (Bool.or_eq_true_iff.mpr (Or.inl letter))

section heads

variable {start : List Char} (heads : Heads start)

include heads

theorem Heads.begins : ∃ c ∈ start.head?, isBlank c = false := by
  obtain ⟨word, gap, sign, rfl, nine, -, letters, -, -⟩ := heads.parts
  obtain ⟨c, rest, rfl⟩ := List.exists_cons_of_length_eq_add_one nine
  exact ⟨c, rfl, not_isBlank_of_isWord (isWord_of_isAlpha (letters c List.mem_cons_self))⟩

theorem Heads.ends : ∃ c ∈ start.getLast?, isWord c = true := by
  obtain ⟨word, gap, sign, rfl, -, two, -, letters, -⟩ := heads.parts
  have given : sign ≠ [] := List.ne_nil_of_length_pos (by omega)
  have last := List.getLast?_eq_getLast_of_ne_nil given
  refine ⟨sign.getLast given, ?_, isWord_of_isAlpha (letters _ (List.getLast_mem given))⟩
  rw [← List.append_assoc, List.getLast?_append, last]
  rfl

theorem Heads.endsSolid : EndsSolid start := by
  obtain ⟨c, last, word⟩ := heads.ends
  exact ⟨c, last, not_isBlank_of_isWord word⟩

theorem Heads.plain : '\x60' ∉ start := by
  obtain ⟨word, gap, sign, rfl, -, -, letters, others, blank⟩ := heads.parts
  rw [List.mem_append, List.mem_append]
  rintro (held | held | held)
  · exact absurd (letters _ held) (by decide)
  · exact absurd (blank _ held) (by decide)
  · exact absurd (others _ held) (by decide)

theorem Heads.unique {other tail more : List Char} (alike : Heads other) (same : start ++ tail = other ++ more) :
    start = other := by
  obtain ⟨word, gap, sign, rfl, nine, two, -, letters, blank⟩ := heads.parts
  obtain ⟨twin, space, mark, rfl, long, short, -, others, clear⟩ := alike.parts
  rw [List.append_assoc, List.append_assoc, List.append_assoc, List.append_assoc] at same
  obtain ⟨rfl, behind⟩ := List.append_inj same (nine.trans long.symm)
  obtain ⟨c, sign, rfl⟩ := List.exists_cons_of_length_eq_add_one two
  obtain ⟨d, mark, rfl⟩ := List.exists_cons_of_length_eq_add_one short
  have solid : isBlank c = false := not_isBlank_of_isWord (isWord_of_isAlpha (letters c List.mem_cons_self))
  have dense : isBlank d = false := not_isBlank_of_isWord (isWord_of_isAlpha (others d List.mem_cons_self))
  obtain ⟨rfl, rfl, rest⟩ := run_inj isBlank blank clear solid dense behind
  obtain ⟨rfl, -⟩ := List.append_inj rest (by simpa using two.trans short.symm)
  rfl

end heads

section whole

variable {start tail : List Char}

theorem trimStart_heads (heads : Heads start) : trimStart (start ++ tail) = start ++ tail := by
  obtain ⟨c, first, solid⟩ := heads.begins
  obtain ⟨rest, rfl⟩ := List.head?_eq_some_iff.mp first
  exact List.dropWhile_cons_of_neg (by simp [solid])

theorem edge_heads (heads : Heads start) (behind : List Char) :
    ((start.reverse ++ behind).head?.any isWord ≠ tail.head?.any isWord) ↔ tail.head?.any isWord = false := by
  obtain ⟨c, last, word⟩ := heads.ends
  obtain ⟨front, rfl⟩ := List.getLast?_eq_some_iff.mp last
  simp [word]

theorem bare_spelled {reply : List Char} {found : Match} (matched : bare.matchAt? [] reply = some found) :
    trimStart reply = found.subject ++ found.afterSubject ∧ Heads found.subject ∧
      found.afterSubject.head?.any isWord = false := by
  have ungrouped : (inOrder [wordEdge]).Ungrouped := trivial
  have read : (inOrder ([atStart, blanks] ++ group .subject _ :: [wordEdge])).matchAt? [] reply = some found := matched
  have ended : (inOrder ([atStart, blanks, heading] ++ [wordEdge])).matchAt? [] reply = some found := matched
  have edge := matchAt_edge ended
  have parts := matchAt_text matched
  obtain ⟨gap, _, ⟨_, _, rfl, blank, rfl⟩, headed, rfl, after, rfl⟩ := matchAt_spells ungrouped read
  rw [List.nil_append] at after
  have heads := spells_heading.mp headed
  have text : found.text = gap ++ found.subject := by
    rw [after, ← List.append_assoc] at parts
    exact (List.append_cancel_right parts).symm
  rw [text, List.reverse_append, List.append_assoc, edge_heads heads, ← after] at edge
  refine ⟨?_, heads, edge⟩
  rw [trimStart_blank_append blank, trimStart_heads heads]

theorem bare_matches {gap : List Char} (blank : ∀ c ∈ gap, isBlank c = true) (heads : Heads start)
    (edge : tail.head?.any isWord = false) : (bare.matchAt? [] (gap ++ start ++ tail)).isSome = true := by
  have spelled : (inOrder [blanks, heading]).Spells (gap ++ start) :=
    ⟨gap, start, blank, spells_heading.mpr heads, rfl⟩
  have plain : (inOrder [blanks, heading]).Plain := by
    simp [blanks, blanks1, heading, caseless, letter]
  let place : Place := { behind := [], ahead := gap ++ start ++ tail }
  have ahead : place.ahead = gap ++ start ++ tail := rfl
  obtain ⟨stop, reached, left⟩ := spells_reach plain spelled ahead
  obtain ⟨text, -, apart⟩ := places_spell _ _ _ reached
  have read : text = gap ++ start := by
    have parts := apart.ahead
    rw [left, ahead] at parts
    exact (List.append_cancel_right parts).symm
  have tested : stop.isWordEdge = true := by
    rw [Place.isWordEdge, apart.behind, left, read, List.reverse_append, List.append_assoc, bne_iff_ne,
      edge_heads heads]
    exact edge
  have ended : stop ∈ (inOrder ([blanks, heading] ++ [wordEdge])).places place :=
    mem_inOrder_append.mpr ⟨stop, reached, mem_wordEdge.mpr ⟨rfl, tested⟩⟩
  exact matchAt_isSome.mpr ⟨stop, mem_inOrder_cons.mpr ⟨place, List.mem_singleton.mpr rfl, ended⟩⟩

theorem whole_iff {reply text : List Char} : whole? reply = some text ↔ text = trimStart reply ∧
    ∃ start tail, trimStart reply = start ++ tail ∧ Heads start ∧ tail.head?.any isWord = false := by
  constructor
  · intro taken
    obtain ⟨found, matched, rfl⟩ := Option.map_eq_some_iff.mp taken
    obtain ⟨split, heads, edge⟩ := bare_spelled matched
    exact ⟨split.symm, found.subject, found.afterSubject, split, heads, edge⟩
  · rintro ⟨rfl, start, tail, split, heads, edge⟩
    have parts : reply = reply.takeWhile isBlank ++ start ++ tail := by
      rw [List.append_assoc, ← split]
      exact List.takeWhile_append_dropWhile.symm
    have blank : ∀ c ∈ reply.takeWhile isBlank, isBlank c = true := fun _ => List.mem_takeWhile_imp
    have some := bare_matches blank heads edge
    rw [← parts] at some
    obtain ⟨found, matched⟩ := Option.isSome_iff_exists.mp some
    exact Option.map_eq_some_iff.mpr ⟨found, matched, (bare_spelled matched).1.symm⟩

end whole

section fenced

def opener : List Pattern := [literal fence, optional (caseless "mermaid"), blanks]

/-- Behind a fence a flowchart begins, and another fence stands behind its heading. -/
def Fenced (reply : List Char) : Prop := ∃ front lead start body behind, (inOrder opener).Spells lead ∧ Heads start ∧
  reply = front ++ (lead ++ (start ++ (body ++ (fence.toList ++ behind))))

theorem fence_toList : fence.toList = ['\x60', '\x60', '\x60'] := by
  simp [fence]

theorem count_opener {lead : List Char} (spelled : (inOrder opener).Spells lead) : lead.count '\x60' = 3 := by
  obtain ⟨_, behind, quotes, others, rfl⟩ := spells_inOrder_cons.mp spelled
  have reads : (inOrder [optional (caseless "mermaid"), blanks]).Reads (· ≠ '\x60') := by
    apply reads_ne
    simp [Each, caseless, letter, blanks]
    decide
  have none : behind.count '\x60' = 0 :=
    List.count_eq_zero.mpr fun member => spells_reads reads others _ member rfl
  rw [spells_literal.mp quotes, fence_toList, List.count_append, none]
  rfl

theorem opened_spelled {behind s : List Char} {found : Match} (matched : opened.matchAt? behind s = some found) :
    ∃ lead, (inOrder opener).Spells lead ∧ Heads found.subject ∧ s = lead ++ (found.subject ++ found.afterSubject) := by
  have ungrouped : (inOrder []).Ungrouped := trivial
  have read : (inOrder (opener ++ group .subject _ :: [])).matchAt? behind s = some found := matched
  obtain ⟨lead, _, spelled, headed, -, -, parts⟩ := matchAt_spells ungrouped read
  exact ⟨lead, spelled, spells_heading.mp headed, parts⟩

theorem opened_matches {lead start : List Char} (spelled : (inOrder opener).Spells lead) (heads : Heads start)
    (behind tail : List Char) : (opened.matchAt? behind (lead ++ (start ++ tail))).isSome = true := by
  have plain : opened.Plain := by
    simp [opened, heading, blanks, blanks1, caseless, letter]
  have whole : (inOrder (opener ++ [heading])).Spells (lead ++ start) :=
    spells_inOrder_append.mpr ⟨lead, start, spelled, spells_heading.mpr heads, rfl⟩
  let place : Place := { behind, ahead := lead ++ (start ++ tail) }
  have ahead : place.ahead = lead ++ start ++ tail := (List.append_assoc _ _ _).symm
  obtain ⟨stop, reached, -⟩ := spells_reach plain whole ahead
  exact matchAt_isSome.mpr ⟨stop, reached⟩

theorem betweenFences_sound {reply text : List Char} (taken : betweenFences? reply = some text) :
    ∃ front lead start body behind, (inOrder opener).Spells lead ∧ Heads start ∧ ¬fence.toList <:+: body ∧
      text = start ++ body ∧ reply = front ++ (lead ++ (start ++ (body ++ (fence.toList ++ behind)))) := by
  obtain ⟨found, searched, taken⟩ := Option.bind_eq_some_iff.mp taken
  obtain ⟨⟨body, behind⟩, cut, same⟩ := Option.bind_eq_some_iff.mp taken
  obtain ⟨front, back, rfl, matched, -⟩ := searchFrom_leftmost _ searched
  obtain ⟨lead, spelled, heads, rfl⟩ := opened_spelled matched
  obtain ⟨split, free⟩ := cutAt_parts (by simp [fence]) _ cut
  exact ⟨front, lead, found.subject, body, behind, spelled, heads, free, (Option.some.inj same).symm, by rw [split]⟩

theorem fence_ahead {front lead start body behind early mark subject rest : List Char} (shorter : early <+: front)
    (spelled : (inOrder opener).Spells lead) (opens : (inOrder opener).Spells mark) (headed : Heads subject)
    (same : front ++ (lead ++ (start ++ (body ++ (fence.toList ++ behind)))) = early ++ (mark ++ (subject ++ rest))) :
    fence.toList <:+: rest := by
  -- What the first opening reads holds no more back quotes than its own fence, and it begins no later than the
  -- fenced flowchart, so the fence behind the flowchart is still ahead.
  let before := front ++ (lead ++ (start ++ body))
  let passed := early ++ (mark ++ subject)
  have split : before ++ (fence.toList ++ behind) = passed ++ rest := by
    simpa [before, passed] using same
  rcases List.append_eq_append_iff.mp split with ⟨more, further, left⟩ | ⟨more, -, left⟩
  · cases more with
    | nil => exact ⟨[], behind, left⟩
    | cons c more =>
        -- Of the fence behind the flowchart at least the first back quote would have been passed.
        have quote : c = '\x60' := by
          rw [fence_toList] at left
          exact (List.cons.inj left).1.symm
        have counted := congrArg (List.count '\x60') further
        have kept := shorter.sublist.count_le '\x60'
        simp only [before, passed, quote, List.count_append, List.count_cons_self, count_opener spelled,
          count_opener opens, List.count_eq_zero.mpr headed.plain] at counted
        omega
  · exact ⟨more, behind, by rw [left, List.append_assoc]⟩

theorem betweenFences_complete {reply : List Char} (fenced : Fenced reply) : (betweenFences? reply).isSome = true := by
  obtain ⟨front, lead, start, body, behind, spelled, heads, parts⟩ := fenced
  have there := opened_matches spelled heads front.reverse (body ++ (fence.toList ++ behind))
  obtain ⟨found, searched⟩ :=
    Option.isSome_iff_exists.mp (occursIn_iff.mpr ⟨front, _, parts, matchAt_isSome.mp there⟩)
  obtain ⟨early, late, split, matched, first⟩ := searchFrom_leftmost _ searched
  obtain ⟨mark, opens, headed, rfl⟩ := opened_spelled matched
  have leftmost : early.length ≤ front.length := by
    by_contra later
    have missed := first front _ parts (Nat.lt_of_not_le later)
    rw [List.append_nil] at missed
    rw [missed] at there
    cases there
  have shorter : early <+: front :=
    List.prefix_of_prefix_length_le ⟨_, split.symm⟩ ⟨_, parts.symm⟩ leftmost
  have ahead := fence_ahead shorter spelled opens headed (parts.symm.trans split)
  obtain ⟨cut, parted⟩ := Option.isSome_iff_exists.mp (cutAt_isSome ahead)
  rw [betweenFences?, searched]
  dsimp only [Option.bind_eq_bind, Option.bind_some]
  rw [parted]
  rfl

theorem betweenFences_isSome {reply : List Char} : (betweenFences? reply).isSome = true ↔ Fenced reply := by
  constructor
  · intro taken
    obtain ⟨text, taken⟩ := Option.isSome_iff_exists.mp taken
    obtain ⟨front, lead, start, body, behind, spelled, heads, -, -, parts⟩ := betweenFences_sound taken
    exact ⟨front, lead, start, body, behind, spelled, heads, parts⟩
  · exact betweenFences_complete

theorem Fenced.holds {reply : List Char} (fenced : Fenced reply) : fence.toList <:+: reply := by
  obtain ⟨front, lead, start, body, behind, -, -, rfl⟩ := fenced
  exact ⟨front ++ (lead ++ (start ++ body)), behind, by simp⟩

theorem Fenced.within {s reply : List Char} (fenced : Fenced s) (part : s <:+: reply) : Fenced reply := by
  obtain ⟨front, lead, start, body, behind, spelled, heads, rfl⟩ := fenced
  obtain ⟨before, more, rfl⟩ := part
  exact ⟨before ++ front, lead, start, body, behind ++ more, spelled, heads, by simp⟩

theorem Fenced.of_concat {s : List Char} {c : Char} (other : c ≠ '\x60') (fenced : Fenced (s ++ [c])) : Fenced s := by
  obtain ⟨front, lead, start, body, behind, spelled, heads, parts⟩ := fenced
  rcases List.eq_nil_or_concat behind with rfl | ⟨behind, last, rfl⟩
  · have lasts := congrArg List.getLast? parts
    simp only [fence_toList, List.getLast?_append, List.append_nil] at lasts
    exact absurd (Option.some.inj lasts) other
  · have whole : s ++ [c] = front ++ (lead ++ (start ++ (body ++ (fence.toList ++ behind)))) ++ [last] := by
      simpa using parts
    exact ⟨front, lead, start, body, behind, spelled, heads, List.append_inj_left' whole rfl⟩

end fenced

section taken

variable {start body tail : List Char}

theorem trim_heads (heads : Heads start) (body : List Char) : trim (start ++ body) = start ++ trimEnd body := by
  rw [trim, trimStart_heads heads, trimEnd_append_solid heads.endsSolid]

theorem ofReply_parts {reply text : String} (taken : ofReply? reply = some text) : ∃ start body, Heads start ∧
    text.toList = start ++ trimEnd body ++ ['\n'] ∧ start ++ body <:+: reply.toList ∧
    (Fenced reply.toList ∧ ¬fence.toList <:+: body ∨
      ¬Fenced reply.toList ∧ body.head?.any isWord = false ∧ trimStart reply.toList = start ++ body) := by
  obtain ⟨chars, either, rfl⟩ := Option.map_eq_some_iff.mp taken
  rw [String.toList_ofList]
  cases between : betweenFences? reply.toList with
  | some inner =>
      rw [between, Option.some_or] at either
      obtain ⟨front, lead, start, body, behind, spelled, heads, free, rfl, parts⟩ := betweenFences_sound between
      obtain rfl := Option.some.inj either
      have fenced : Fenced reply.toList := ⟨front, lead, start, body, behind, spelled, heads, parts⟩
      refine ⟨start, body, heads, by rw [trim_heads heads], ?_, Or.inl ⟨fenced, free⟩⟩
      exact ⟨front ++ lead, fence.toList ++ behind, by simp [parts]⟩
  | none =>
      rw [between, Option.none_or] at either
      obtain ⟨rfl, start, body, split, heads, edge⟩ := whole_iff.mp either
      have unfenced : ¬Fenced reply.toList := by
        rw [← betweenFences_isSome, between]
        exact Bool.false_ne_true
      refine ⟨start, body, heads, by rw [split, trim_heads heads], ?_, Or.inr ⟨unfenced, edge, split⟩⟩
      exact split ▸ (List.dropWhile_suffix isBlank).isInfix

theorem ofReply_again {text : String} (unfenced : ¬Fenced text.toList) (heads : Heads start)
    (parts : text.toList = start ++ trimEnd body ++ ['\n']) :
    ofReply? text = if (trimEnd body).head?.any isWord then none else some text := by
  have nothing : betweenFences? text.toList = none := by
    rwa [← betweenFences_isSome, Option.not_isSome_iff_eq_none] at unfenced
  have begun : trimStart text.toList = start ++ (trimEnd body ++ ['\n']) := by
    rw [parts, List.append_assoc, trimStart_heads heads]
  have same : (trimEnd body ++ ['\n']).head?.any isWord = (trimEnd body).head?.any isWord := by
    cases trimEnd body <;> rfl
  rw [ofReply?, nothing, Option.none_or]
  split
  · rename_i runs
    have refused : whole? text.toList = none := by
      apply Option.eq_none_iff_forall_ne_some.mpr
      intro chars taken
      obtain ⟨-, other, more, split, alike, edge⟩ := whole_iff.mp taken
      rw [begun] at split
      obtain rfl := heads.unique alike split
      rw [← List.append_cancel_left split, same, runs] at edge
      cases edge
    rw [refused]
    rfl
  · rename_i ends
    have whole : whole? text.toList = some text.toList := by
      apply whole_iff.mpr
      refine ⟨?_, start, _, begun, heads, ?_⟩
      · rw [begun, parts, List.append_assoc]
      · rw [same]
        exact Bool.eq_false_iff.mpr ends
    have blank : ∀ c ∈ ['\n'], isBlank c = true := List.forall_mem_singleton.mpr (by decide)
    have trimmed : trim text.toList = start ++ trimEnd body := by
      rw [parts, trim_append_blank blank, trim_heads heads]
      exact congrArg (start ++ ·) (List.rdropWhile_idempotent isBlank body)
    rw [whole, Option.map_some, trimmed, ← parts, String.ofList_toList]

theorem fence_within {front s back : List Char} (before : '\x60' ∉ front) (behind : '\x60' ∉ back) :
    fence.toList <:+: front ++ (s ++ back) ↔ fence.toList <:+: s := by
  have given : fence.toList ≠ [] := by simp [fence]
  have quotes : ∀ c ∈ fence.toList, c = '\x60' := by simp [fence]
  have apart : ∀ {plain : List Char}, '\x60' ∉ plain → ∀ c ∈ plain, c ∉ fence.toList :=
    fun clean c member held => clean (quotes c held ▸ member)
  constructor
  · intro held
    exact infix_of_append_right given (apart behind) (infix_of_append_left given (apart before) held)
  · intro held
    exact held.trans ⟨front, back, List.append_assoc _ _ _⟩

end taken

/-- What is taken out of a reply begins with a heading, is a part of the reply up to a line feed behind its last solid
character, and holds a fence only where none encloses a flowchart and the reply is taken whole. It is taken again as it
is, unless a fence let its heading run on into a longer word. -/
theorem ofReply_taken {reply text : String} (taken : ofReply? reply = some text) :
    ∃ start tail, Heads start ∧ text.toList = start ++ tail ++ ['\n'] ∧ EndsSolid (start ++ tail) ∧
      start ++ tail <:+: reply.toList ∧
      (fence.toList <:+: text.toList ↔ ¬Fenced reply.toList ∧ fence.toList <:+: reply.toList) ∧
      (tail.head?.any isWord = true → Fenced reply.toList) ∧
      ofReply? text = if tail.head?.any isWord then none else some text := by
  obtain ⟨start, body, heads, parts, within, how⟩ := ofReply_parts taken
  let gap := body.rtakeWhile isBlank
  have trimmed : trimEnd body ++ gap = body := List.rdropWhile_append_rtakeWhile
  have clear : ∀ blanks : List Char, (∀ c ∈ blanks, isBlank c = true) → '\x60' ∉ blanks :=
    fun blanks blank member => absurd (blank _ member) (by decide)
  have part : start ++ trimEnd body <:+: reply.toList := by
    refine List.IsInfix.trans (List.IsPrefix.isInfix ?_) within
    exact List.prefix_append_right_inj start |>.mpr (trimEnd_begins body)
  have inText : fence.toList <:+: text.toList ↔ fence.toList <:+: trimEnd body := by
    rw [parts, List.append_assoc]
    exact fence_within heads.plain (by decide)
  refine ⟨start, trimEnd body, heads, parts, endsSolid_append_trimEnd heads.endsSolid body, part, ?_, ?_, ?_⟩
  · rw [inText]
    rcases how with ⟨fenced, free⟩ | ⟨unfenced, -, split⟩
    · have absent : ¬fence.toList <:+: trimEnd body := fun held => free (held.trans (trimEnd_begins body).isInfix)
      exact ⟨fun held => absurd held absent, fun both => absurd fenced both.1⟩
    · have inReply : fence.toList <:+: reply.toList ↔ fence.toList <:+: trimEnd body := by
        let lead := reply.toList.takeWhile isBlank
        have whole : reply.toList = (lead ++ start) ++ (trimEnd body ++ gap) := by
          rw [trimmed, List.append_assoc, ← split]
          exact List.takeWhile_append_dropWhile.symm
        rw [whole]
        apply fence_within
        · exact List.not_mem_append (clear lead fun _ => List.mem_takeWhile_imp) heads.plain
        · exact clear gap fun _ => List.mem_rtakeWhile_imp
      rw [inReply]
      exact (and_iff_right unfenced).symm
  · intro runs
    rcases how with ⟨fenced, -⟩ | ⟨-, edge, -⟩
    · exact fenced
    · cases kept : trimEnd body with
      | nil =>
          rw [kept] at runs
          cases runs
      | cons c rest =>
          rw [← trimmed, kept] at edge
          rw [kept] at runs
          exact absurd (edge.symm.trans runs) Bool.false_ne_true
  · apply ofReply_again _ heads parts
    rcases how with ⟨-, free⟩ | ⟨unfenced, -, -⟩
    · exact fun fenced => free ((inText.mp fenced.holds).trans (trimEnd_begins body).isInfix)
    · intro fenced
      rw [parts] at fenced
      exact unfenced ((fenced.of_concat (by decide)).within part)

theorem ofReply_taken_strays :
    (∃ text, ofReply? "Here:\n```mermaid\nFlowchart  TDX\n```" = some text ∧ ofReply? text = none) ∧
      ∃ text, ofReply? "flowchart TD\n    A --> B\n```\nThanks" = some text ∧ fence.toList <:+: text.toList ∧
        ofReply? text = some text := by
  constructor
  · have taken : ofReply? "Here:\n```mermaid\nFlowchart  TDX\n```" = some "Flowchart  TDX\n" := by cbv
    obtain ⟨start, tail, heads, parts, -, -, -, -, again⟩ := ofReply_taken taken
    have alike : Heads "Flowchart  TD".toList :=
      ⟨"Flowchart".toList, [' ', ' '], "TD".toList, by simp, by simpa using (by decide : isBlank ' ' = true), by simp,
        by simp⟩
    have split : "Flowchart  TD".toList ++ "X\n".toList = start ++ (tail ++ ['\n']) := by
      rw [← List.append_assoc, ← parts]
      decide +kernel
    obtain rfl := alike.unique heads split
    have more : tail = ['X'] := by
      have same := List.append_cancel_left split
      exact (List.append_inj_left' same.symm rfl)
    rw [more] at again
    exact ⟨_, taken, again⟩
  · have taken : ofReply? "flowchart TD\n    A --> B\n```\nThanks" =
        some "flowchart TD\n    A --> B\n```\nThanks\n" := by
      cbv
    obtain ⟨start, tail, -, -, -, -, inText, runs, again⟩ := ofReply_taken taken
    have unfenced : ¬Fenced "flowchart TD\n    A --> B\n```\nThanks".toList := by
      rw [← betweenFences_isSome]
      cbv
      decide
    have held : fence.toList <:+: "flowchart TD\n    A --> B\n```\nThanks".toList :=
      ⟨"flowchart TD\n    A --> B\n".toList, "\nThanks".toList, by decide +kernel⟩
    rw [if_neg fun further => unfenced (runs further)] at again
    exact ⟨_, taken, inText.mpr ⟨unfenced, held⟩, again⟩

end Flowchart

end FlowAtlas
