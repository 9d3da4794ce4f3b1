import ChatDispatch.Listening.Lines
import ChatDispatch.Proofs.Text.Pieces
import ChatDispatch.Proofs.Text.Utf8
import Mathlib.Data.List.DropRight

/-!
What a source makes of lines of text. Bytes are cut into lines before they are decoded, but for the
bytes of a text this gives the same lines as cutting the text itself, up to carriage returns at
their ends, which do not count. Each line that is not blank then gives one update: the one that it
holds, or a fresh message that has its number among the fresh messages.
-/

namespace ChatDispatch

namespace Text

variable {c : Char} {text other : List Char}

theorem dropTrailing_dropTrailing (c : Char) (text : List Char) :
    dropTrailing c (dropTrailing c text) = dropTrailing c text :=
  List.rdropWhile_idempotent (· == c) text

/-- How the end of a text is trimmed does not depend on the character in front. -/
theorem dropTrailing_cons_congr (h : dropTrailing c text = dropTrailing c other) (d : Char) :
    dropTrailing c (d :: text) = dropTrailing c (d :: other) := by
  have hrest : text.reverse.dropWhile (· == c) = other.reverse.dropWhile (· == c) :=
    List.reverse_inj.mp h
  rw [dropTrailing, dropTrailing, List.reverse_cons, List.reverse_cons, List.dropWhile_append,
    List.dropWhile_append, hrest]

end Text

namespace Lines

open Text

section Bytes

variable {byte : UInt8} {front rest : List UInt8} {c : Char} {text : List Char}

theorem splitBytes_ne_nil (bytes : List UInt8) : splitBytes bytes ≠ [] := by
  fun_induction splitBytes bytes <;> simp_all

/-- A byte that ends no line belongs to the line of what stands behind it. -/
theorem splitBytes_cons (hfeed : byte ≠ 0x0A) (hreturn : byte = 0x0D → rest.head? ≠ some 0x0A) :
    splitBytes (byte :: rest) = (splitBytes rest).modifyHead (byte :: ·) := by
  rw [splitBytes]
  · cases hrest : splitBytes rest with
    | nil => exact absurd hrest (splitBytes_ne_nil rest)
    | cons first more => rfl
  · exact hfeed
  · rintro behind rfl rfl
    exact hreturn rfl rfl

theorem splitBytes_append (hfeed : 0x0A ∉ front) (hreturn : 0x0D ∉ front) :
    splitBytes (front ++ rest) = (splitBytes rest).modifyHead (front ++ ·) := by
  induction front with
  | nil => exact (congrFun List.modifyHead_id _).symm
  | cons byte front ih =>
    obtain ⟨hbyte, hfeed⟩ := not_or.mp (mt List.mem_cons.mpr hfeed)
    obtain ⟨hbyte', hreturn⟩ := not_or.mp (mt List.mem_cons.mpr hreturn)
    rw [List.cons_append, splitBytes_cons (Ne.symm hbyte) fun heq => absurd heq.symm hbyte',
      ih hfeed hreturn, List.modifyHead_modifyHead]
    rfl

theorem feed_not_mem (hc : c ≠ '\n') : 0x0A ∉ String.utf8EncodeChar c :=
  fun hmem => hc (eq_of_mem_encodeChar hmem (by decide)).2

theorem return_not_mem (hc : c ≠ '\r') : 0x0D ∉ String.utf8EncodeChar c :=
  fun hmem => hc (eq_of_mem_encodeChar hmem (by decide)).2

/-- The bytes of a text begin with a line feed only if the text does. -/
theorem exists_of_head?_encoded (h : (encoded text).head? = some 0x0A) :
    ∃ rest, text = '\n' :: rest := by
  cases text with
  | nil => cases h
  | cons c rest =>
    obtain ⟨behind, hbytes⟩ := List.head?_eq_some_iff.mp h
    cases hchar : String.utf8EncodeChar c with
    | nil => exact absurd hchar String.utf8EncodeChar_ne_nil
    | cons byte bytes =>
      rw [encoded_cons, hchar] at hbytes
      obtain rfl := (List.cons.inj hbytes).1
      have hmem : 0x0A ∈ String.utf8EncodeChar c := hchar ▸ List.mem_cons_self
      exact ⟨rest, by rw [(eq_of_mem_encodeChar hmem (by decide)).2]; rfl⟩

/-- The character in front of a text belongs to its first line, unless it ends a line or is the
carriage return of an end. -/
theorem splitBytes_encoded_cons (hfeed : c ≠ '\n')
    (hreturn : c = '\r' → ∀ rest, text ≠ '\n' :: rest) :
    splitBytes (encoded (c :: text)) =
      (splitBytes (encoded text)).modifyHead (String.utf8EncodeChar c ++ ·) := by
  by_cases hc : c = '\r'
  · subst hc
    refine splitBytes_cons (by decide) fun _ hhead => ?_
    obtain ⟨rest, hrest⟩ := exists_of_head?_encoded hhead
    exact hreturn rfl rest hrest
  · exact splitBytes_append (feed_not_mem hfeed) (return_not_mem hc)

/-- The bytes of a text are cut into the bytes of its lines; only a carriage return that belongs to
the end of a line is missing there. -/
theorem exists_lines (text : List Char) :
    ∃ lines : List (List Char), splitBytes (encoded text) = lines.map encoded ∧
      lines.map (dropTrailing '\r') = (pieces '\n' text).map (dropTrailing '\r') := by
  induction text with
  | nil => exact ⟨[[]], rfl, rfl⟩
  | cons c text ih =>
    obtain ⟨lines, hbytes, htrimmed⟩ := ih
    by_cases hfeed : c = '\n'
    · subst hfeed
      have hsplit : splitBytes (encoded ('\n' :: text)) = [] :: splitBytes (encoded text) := rfl
      refine ⟨[] :: lines, ?_, ?_⟩
      · rw [hsplit, hbytes]
        rfl
      · rw [pieces, if_pos rfl, List.map_cons, List.map_cons, htrimmed]
    by_cases hreturn : c = '\r' ∧ ∃ rest, text = '\n' :: rest
    · -- the line feed behind takes the carriage return with it, so the bytes are cut as without it
      obtain ⟨rfl, rest, rfl⟩ := hreturn
      have hsplit : splitBytes (encoded ('\r' :: '\n' :: rest)) =
          splitBytes (encoded ('\n' :: rest)) := rfl
      refine ⟨lines, hsplit.trans hbytes, ?_⟩
      rw [htrimmed, pieces_cons_of_ne hfeed, pieces, if_pos rfl]
      rfl
    · have hhead := splitBytes_encoded_cons hfeed fun heq rest htext =>
        hreturn ⟨heq, rest, htext⟩
      refine ⟨lines.modifyHead (c :: ·), ?_, ?_⟩
      · rw [hhead, hbytes]
        cases lines <;> rfl
      · rw [pieces_cons_of_ne hfeed]
        cases hpieces : pieces '\n' text with
        | nil => exact absurd hpieces (pieces_ne_nil '\n' text)
        | cons piece more =>
          rw [hpieces] at htrimmed
          cases lines with
          | nil => cases htrimmed
          | cons line lines =>
            obtain ⟨hline, hmore⟩ := List.cons.inj htrimmed
            exact List.cons_eq_cons.mpr ⟨dropTrailing_cons_congr hline c, hmore⟩

end Bytes

section Fetches

variable {stamp : LineStamp} {id : Int} {line : List Char} {lines parts : List (List Char)}

/-- Carriage returns at the ends of lines make no difference. -/
theorem fetchesFrom_trimmed (stamp : LineStamp) (id : Int) (lines : List (List Char)) :
    fetchesFrom stamp id ((lines.map (dropTrailing '\r')).map .ok) =
      fetchesFrom stamp id (lines.map .ok) := by
  induction lines generalizing id with
  | nil => rfl
  | cons line lines ih =>
    simp only [List.map_cons, fetchesFrom, dropTrailing_dropTrailing, ih]

/-- Cutting and decoding the bytes of a text is the same as cutting the text. -/
theorem ofBytes_encoded (stamp : LineStamp) (text : List Char) :
    Source.ofBytes stamp (encoded text) = Source.ofText stamp text := by
  obtain ⟨lines, hbytes, htrimmed⟩ := exists_lines text
  have hdecoded : ofBytes (encoded text) = lines.map .ok := by
    rw [ofBytes, hbytes, List.map_map]
    exact List.map_congr_left fun line _ => decodeUtf8_encoded line
  have hfetches : fetches stamp (ofBytes (encoded text)) = fetches stamp (ofText text) := by
    rw [fetches, fetches, hdecoded, ofText, ← fetchesFrom_trimmed, htrimmed, fetchesFrom_trimmed]
  rw [Source.ofBytes, Source.ofText, hfetches]

/-- The update that a line holds: the line begins with a brace, and can be decoded. -/
def held? (line : List Char) : Option Update :=
  if line.head? = some '{' then (Update.ofText (String.ofList line)).toOption else none

theorem toOption_decoded (line : List Char) : (decoded line).toOption = held? line := by
  cases line with
  | nil => rfl
  | cons c rest =>
    by_cases hc : c = '{'
    · subst hc
      rw [decoded, held?, List.head?_cons, if_pos rfl]
      cases Update.ofText (String.ofList ('{' :: rest)) <;> rfl
    · rw [decoded, held?, List.head?_cons, if_neg fun heq => hc (Option.some.inj heq)]
      · rfl
      · intro behind hcons
        exact hc (List.cons.inj hcons).1

/-- The lines that are taken up: without carriage returns at their ends, and the blank ones left
out. -/
def taken (lines : List (List Char)) : List (List Char) :=
  (lines.map (dropTrailing '\r')).filter fun line => !isBlankText line

/-- Lines that are taken up become updates, the next fresh message getting the number `id`. -/
inductive Become (stamp : LineStamp) : Int → List (List Char) → List Update → Prop
  | nil {id : Int} : Become stamp id [] []
  | held {id : Int} {line : List Char} {lines : List (List Char)} {update : Update}
      {updates : List Update} (hheld : held? line = some update)
      (hrest : Become stamp id lines updates) :
      Become stamp id (line :: lines) (update :: updates)
  | fresh {id : Int} {line : List Char} {lines : List (List Char)} {updates : List Update}
      (hheld : held? line = none) (hrest : Become stamp (id + 1) lines updates) :
      Become stamp id (line :: lines) (freshUpdate stamp id line :: updates)

/-- All that a line can come to: it is blank and passed over, or it becomes an update, which is
handed out at once; at most something is logged before. -/
theorem fetchesFrom_cons (stamp : LineStamp) (id : Int) (line : List Char)
    (behind : List (Except Utf8Fault (List Char))) :
    (isBlankText (dropTrailing '\r' line) = true ∧
      fetchesFrom stamp id (.ok line :: behind) = fetchesFrom stamp id behind) ∨
    (isBlankText (dropTrailing '\r' line) = false ∧ ∃ pauses update next,
      fetchesFrom stamp id (.ok line :: behind) =
        ⟨pauses, .batch [update]⟩ :: fetchesFrom stamp next behind ∧
      (∀ pause ∈ pauses, ∃ record, pause = .log record) ∧
      ∀ lines updates, Become stamp next lines updates →
        Become stamp id (dropTrailing '\r' line :: lines) (update :: updates)) := by
  rw [fetchesFrom]
  by_cases hblank : isBlankText (dropTrailing '\r' line) = true
  · exact .inl ⟨hblank, if_pos hblank⟩
  · rw [if_neg hblank]
    refine .inr ⟨eq_false_of_ne_true hblank, ?_⟩
    have hheld := toOption_decoded (dropTrailing '\r' line)
    cases hdecoded : decoded (dropTrailing '\r' line) with
    | ok update =>
      rw [hdecoded] at hheld
      exact ⟨[], update, id, rfl, nofun, fun _ _ => .held hheld.symm⟩
    | error problem =>
      rw [hdecoded] at hheld
      refine ⟨_, _, id + 1, rfl, fun pause hpause => ?_, fun _ _ => .fresh hheld.symm⟩
      obtain ⟨_, -, hlog⟩ := List.mem_map.mp hpause
      exact ⟨_, hlog.symm⟩

/-- The fetches of some lines hand out what the lines become, one update at a time, and then end. -/
theorem exists_become (stamp : LineStamp) (id : Int) (lines : List (List Char)) :
    ∃ updates, Become stamp id (taken lines) updates ∧
      (fetchesFrom stamp id (lines.map .ok)).map Fetch.answer =
        updates.map (fun update => .batch [update]) ++ [.ended] := by
  induction lines generalizing id with
  | nil => exact ⟨[], .nil, rfl⟩
  | cons line lines ih =>
    rw [List.map_cons, taken, List.map_cons]
    rcases fetchesFrom_cons stamp id line (lines.map .ok) with
      ⟨hblank, hfetches⟩ | ⟨hblank, pauses, update, next, hfetches, -, hstep⟩
    · rw [hfetches, List.filter_cons_of_neg (by simp [hblank])]
      exact ih id
    · obtain ⟨updates, hbecome, hanswers⟩ := ih next
      rw [hfetches, List.filter_cons_of_pos (by simp [hblank])]
      refine ⟨update :: updates, hstep _ _ hbecome, ?_⟩
      rw [List.map_cons, hanswers]
      rfl

/-- A fetch of a line answers at once; at most it logs something before. -/
theorem log_of_mem_pauses {fetch : Fetch} {pause : Pause}
    (hfetch : fetch ∈ fetchesFrom stamp id (lines.map .ok)) (hpause : pause ∈ fetch.pauses) :
    ∃ record, pause = .log record := by
  induction lines generalizing id with
  | nil =>
    obtain rfl := List.mem_singleton.mp hfetch
    exact ⟨_, List.mem_singleton.mp hpause⟩
  | cons line lines ih =>
    rw [List.map_cons] at hfetch
    rcases fetchesFrom_cons stamp id line (lines.map .ok) with
      ⟨-, hfetches⟩ | ⟨-, pauses, update, next, hfetches, hlogs, -⟩
    · exact ih (hfetches ▸ hfetch)
    · rw [hfetches] at hfetch
      rcases List.mem_cons.mp hfetch with rfl | hfetch
      · exact hlogs pause hpause
      · exact ih hfetch

namespace Become

variable {updates : List Update}

theorem length_eq (h : Become stamp id lines updates) : updates.length = lines.length := by
  induction h with
  | nil => rfl
  | held _ _ ih => rw [List.length_cons, List.length_cons, ih]
  | fresh _ _ ih => rw [List.length_cons, List.length_cons, ih]

/-- Each update is the one that its line holds, or a fresh message with the number that the lines in
front leave to it. -/
theorem getElem? (h : Become stamp id lines updates) {number : Nat} {update : Update}
    (hline : lines[number]? = some line) (hupdate : updates[number]? = some update) :
    (∀ held, held? line = some held → update = held) ∧
    (held? line = none →
      update = freshUpdate stamp
        (id + (lines.take number).countP fun line => (held? line).isNone) line) := by
  induction h generalizing number with
  | nil => cases hline
  | @held id first lines held updates hheld _ ih =>
    cases number with
    | zero =>
      obtain rfl := Option.some.inj hline
      obtain rfl := Option.some.inj hupdate
      exact ⟨fun _ hother => Option.some.inj (hheld.symm.trans hother),
        fun hnone => absurd (hheld.symm.trans hnone) nofun⟩
    | succ number =>
      obtain ⟨hsome, hnone⟩ := ih hline hupdate
      have hcount : (List.take (number + 1) (first :: lines)).countP
          (fun line => (held? line).isNone) =
            (lines.take number).countP fun line => (held? line).isNone := by
        simp [hheld]
      rw [hcount]
      exact ⟨hsome, hnone⟩
  | @fresh id first lines updates hheld _ ih =>
    cases number with
    | zero =>
      obtain rfl := Option.some.inj hline
      obtain rfl := Option.some.inj hupdate
      refine ⟨fun _ hother => absurd (hheld.symm.trans hother) nofun, fun _ => ?_⟩
      simp
    | succ number =>
      obtain ⟨hsome, hnone⟩ := ih hline hupdate
      have hcount : (List.take (number + 1) (first :: lines)).countP
          (fun line => (held? line).isNone) =
            ((lines.take number).countP fun line => (held? line).isNone) + 1 := by
        simp [hheld]
      rw [hcount, Int.natCast_succ, Int.add_comm _ 1, ← Int.add_assoc]
      exact ⟨hsome, hnone⟩

end Become

/-- A source over the bytes of a text hands out one update for each line that is taken up, in their
order, and then ends. A line that holds an update gives that update as it is, and every other line a
fresh message that has the line as its text and is numbered among the fresh messages. -/
theorem source_yields_update_per_line (stamp : LineStamp) (text : String)
    (h : SplitsInto '\n' text.toList parts) :
    ∃ updates : List Update,
      ((Source.ofBytes stamp text.toUTF8.data.toList).fetches.map Fetch.answer =
        updates.map (fun update => .batch [update]) ++ [.ended]) ∧
      (∀ fetch ∈ (Source.ofBytes stamp text.toUTF8.data.toList).fetches,
        ∀ pause ∈ fetch.pauses, ∃ record, pause = .log record) ∧
      updates.length = (taken parts).length ∧
      ∀ number line update, (taken parts)[number]? = some line →
        updates[number]? = some update →
        (∀ held, held? line = some held → update = held) ∧
        (held? line = none →
          update = ⟨"message_new", stamp.group, some
            { id := 1 + (((taken parts).take number).countP fun line => (held? line).isNone : Nat)
              peer := stamp.peer
              sender := stamp.sender
              text := some (String.ofList line)
              body := none
              date := .received }⟩) := by
  rw [toList_data_toUTF8, ofBytes_encoded, h.eq_pieces]
  obtain ⟨updates, hbecome, hanswers⟩ := exists_become stamp 1 (pieces '\n' text.toList)
  exact ⟨updates, hanswers, fun fetch hfetch pause hpause => log_of_mem_pauses hfetch hpause,
    hbecome.length_eq, fun number line update hline hupdate => hbecome.getElem? hline hupdate⟩

def mixedParts : List (List Char) :=
  [" /ping \r".toList, " \t\r".toList, "\x7b\"type\":\"message_reply\",\"group_id\":3\x7d".toList,
    "\x7boops".toList, "last\r\r".toList]

/-- The update that is handed out as it is takes no number, and the line with a brace takes one. -/
theorem source_yields_mixed_updates :
    SplitsInto '\n' (String.ofList (joined '\n' mixedParts)).toList mixedParts ∧
    ∃ updates : List Update,
      (Source.ofBytes ⟨7, 100, 9⟩
        (String.ofList (joined '\n' mixedParts)).toUTF8.data.toList).fetches.map Fetch.answer =
          updates.map (fun update => .batch [update]) ++ [.ended] ∧
      updates[1]? = some ⟨"message_reply", 3, none⟩ ∧
      updates[3]? = some ⟨"message_new", 7, some
        { id := 3, peer := 100, sender := 9, text := some "last", date := .received }⟩ := by
  have hsplit : SplitsInto '\n' (String.ofList (joined '\n' mixedParts)).toList mixedParts :=
    ⟨by decide, by decide, by rfl⟩
  obtain ⟨updates, hanswers, -, hlength, hupdates⟩ :=
    source_yields_update_per_line ⟨7, 100, 9⟩ (String.ofList (joined '\n' mixedParts)) hsplit
  have htaken : taken mixedParts =
      [" /ping ".toList, "\x7b\"type\":\"message_reply\",\"group_id\":3\x7d".toList,
        "\x7boops".toList, "last".toList] := by rfl
  rw [htaken] at hlength hupdates
  have hsize : updates.length = 4 := hlength
  have hone : 1 < updates.length := by omega
  have hthree : 3 < updates.length := by omega
  have hsecond : updates[1]? = some updates[1] := List.getElem?_eq_getElem hone
  have hfourth : updates[3]? = some updates[3] := List.getElem?_eq_getElem hthree
  refine ⟨hsplit, updates, hanswers, ?_, ?_⟩
  · rw [hsecond, (hupdates 1 _ _ rfl hsecond).1 ⟨"message_reply", 3, none⟩ (by rfl)]
  · rw [hfourth, (hupdates 3 _ _ rfl hfourth).2 (by rfl)]
    rfl

end Fetches

end Lines

end ChatDispatch
