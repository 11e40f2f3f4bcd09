import CppDemo.Misc.HttpRequest.Message

/-!
# The first header line

Since the text of a header line is put behind those of the lines before it, the first colon of the
first line is the first colon of all that follow. Every header of such a request has the name of the
first one. A content length is therefore not found behind another header, and the body is left
unread. If it is the only header, then the body is read as it says.

Source: `misc/fsmlite_test.cpp`, lines 57–59, 111–133 and 172–187.

## Main results

* `names_of_first_colon` : all headers have the name of the first one.
* `parseLoop_of_first_colon` : the loop of `main` stops before the body.
* `parseLoop_of_contentLength` : it reads the body that a single header line announces.
-/

namespace CppDemo.Misc.HttpRequest

open Transition HttpRequestParser

/-- The content length is looked up by its name, and is empty if there is none. -/
def LooksUpContentLength (lib : HttpLibrary) : Prop :=
  ∀ headers : List Header, (∀ h ∈ headers, h.name.map tolower ≠ ascii "content-length") →
    lib.contentLength headers = []

/-- A content length is found if there is no other header. -/
def FindsContentLength (lib : HttpLibrary) : Prop :=
  ∀ h : Header, h.name.map tolower = ascii "content-length" → lib.contentLength [h] = h.value

theorem plainLibrary_looksUpContentLength : LooksUpContentLength plainLibrary := by
  intro headers h
  have hnone : headers.find? (fun h ↦ h.name.map tolower = ascii "content-length") = none :=
    List.find?_eq_none.mpr fun header hheader hname ↦ h header hheader (of_decide_eq_true hname)
  simp only [plainLibrary, hnone]
  rfl

theorem plainLibrary_findsContentLength : FindsContentLength plainLibrary := by
  intro h hname
  simp [plainLibrary, hname]

section FirstColon

variable {lib : HttpLibrary} {l : HeaderLine}

/-- What stands before the first colon stays the same when a text goes on. -/
theorem takeWhile_append_of_mem {s : Bytes} (hcolon : colon ∈ s) (t : Bytes) :
    (s ++ t).takeWhile (· ≠ colon) = s.takeWhile (· ≠ colon) := by
  obtain ⟨before, after, rfl, hbefore⟩ := List.eq_append_cons_of_mem hcolon
  have hall : ∀ c ∈ before, decide (c ≠ colon) = true := fun c hc ↦
    decide_eq_true fun hc' ↦ hbefore (hc' ▸ hc)
  rw [List.append_assoc, List.cons_append, List.takeWhile_append_of_pos hall,
    List.takeWhile_append_of_pos hall, List.takeWhile_cons_of_neg (by simp),
    List.takeWhile_cons_of_neg (by simp)]

theorem name_headerOf_append (hcolon : colon ∈ l.text) (t : Bytes) :
    (headerOf lib (l.text ++ t)).name = (headerOf lib l.text).name := by
  rw [headerOf, headerOf, takeWhile_append_of_mem hcolon]

theorem map_name_headersOf (hlib : lib.Documented) (hcolon : colon ∈ l.text)
    (ls : List HeaderLine) : (headersOf lib [] (l :: ls)).map Header.name =
      List.replicate (ls.length + 1) (headerOf lib l.text).name := by
  rw [headersOf_eq hlib, List.inits_cons, List.tail_cons, List.map_map, List.map_map,
    List.eq_replicate_iff]
  refine ⟨by simp, fun name hname ↦ ?_⟩
  obtain ⟨k, -, rfl⟩ := List.mem_map.mp hname
  exact name_headerOf_append hcolon (textOf k)

/-- If the first header line has a colon, then as many headers are added as there are header lines,
and all have the name of the first one. -/
theorem names_of_first_colon (hlib : lib.Documented) (hcolon : colon ∈ l.text) (r : RequestLine)
    (ls : List HeaderLine) :
    ∃ headers, headerListAfter lib (linesBytes r (l :: ls)) = some headers ∧
      headers.map Header.name = List.replicate (ls.length + 1) (headerOf lib l.text).name := by
  refine ⟨_, ?_, map_name_headersOf hlib hcolon ls⟩
  rw [headerListAfter, feed_lines hlib]
  simp [linesParser, hlib.headerList]

/-- A request line for `/` with the method `POST`. -/
def postLine : RequestLine :=
  { getLine with
    method := ascii "POST"
    method_valid := Or.inr rfl }

/-- The line `Host: a`. -/
def hostLine : HeaderLine :=
  ⟨72, ascii "ost: a", rfl, by simp [ascii, carriageReturn, newLine]⟩

/-- The line `Content-Length: 2`. -/
def contentLengthLine : HeaderLine :=
  ⟨67, ascii "ontent-Length: 2", rfl, by simp [ascii, carriageReturn, newLine]⟩

theorem names_of_first_colon_post :
    ∃ headers, headerListAfter plainLibrary (linesBytes postLine [hostLine, contentLengthLine]) =
        some headers ∧
      headers.map Header.name = List.replicate ([contentLengthLine].length + 1)
        (headerOf plainLibrary hostLine.text).name :=
  names_of_first_colon plainLibrary_documented (by decide) postLine [contentLengthLine]

theorem headerList_of_head (hlib : lib.Documented) (h : Head) :
    (h.parser lib).request.headerList = headersOf lib [] h.headers := by
  simp [Head.parser, linesParser, hlib.headerList]

/-- If the first header line has a colon and is not the content length, then the loop of `main`
finishes at the end of the head, whatever the other lines say, and leaves the body unread. -/
theorem parseLoop_of_first_colon (hlib : lib.Documented) (hlength : LooksUpContentLength lib)
    (hcolon : colon ∈ l.text)
    (hname : (headerOf lib l.text).name.map tolower ≠ ascii "content-length") (r : RequestLine)
    (ls : List HeaderLine) (body : Bytes) :
    ∃ self, parseLoop lib (init lib) ((⟨r, l :: ls⟩ : Head).bytes ++ body) =
      some ⟨false, (.finish, self), body⟩ ∧ self.request.body = lib.request.body := by
  have hheaders : ∀ h ∈ headersOf lib [] (l :: ls),
      h.name.map tolower ≠ ascii "content-length" := by
    intro h hh
    have hmem := List.mem_map_of_mem (f := Header.name) hh
    rw [map_name_headersOf hlib hcolon ls] at hmem
    rw [List.eq_of_mem_replicate hmem]
    exact hname
  have hsize : ((⟨r, l :: ls⟩ : Head).parser lib).bodySize lib = 0 := by
    rw [bodySize, headerList_of_head hlib, hlength _ hheaders]
    rfl
  have hzero : bodyLength lib ⟨r, l :: ls⟩ = 0 := by
    refine if_neg fun hneed ↦ ?_
    have hpos := ((isNeedBody_iff _).mp hneed).2
    rw [hsize] at hpos
    exact absurd hpos (lt_irrefl 0)
  let m : Message lib := ⟨⟨r, l :: ls⟩, [], hzero.symm⟩
  refine ⟨m.parser, ?_, ?_⟩
  · have hloop := parseLoop_bytes_append hlib m body
    rwa [Message.bytes, List.append_nil] at hloop
  · rw [Message.parser, if_pos hzero]
    rfl

/-- The body of two bytes stays unread. -/
theorem parseLoop_of_first_colon_post :
    ∃ self, parseLoop plainLibrary (init plainLibrary)
        ((⟨postLine, [hostLine, contentLengthLine]⟩ : Head).bytes ++ ascii "{}") =
      some ⟨false, (.finish, self), ascii "{}"⟩ ∧
        self.request.body = plainLibrary.request.body :=
  parseLoop_of_first_colon plainLibrary_documented plainLibrary_looksUpContentLength (by decide)
    (by decide) postLine [contentLengthLine] (ascii "{}")

/-- If the only header line announces the length of the body, then the loop of `main` reads the body
and nothing behind it. -/
theorem parseLoop_of_contentLength (hlib : lib.Documented) (hfinds : FindsContentLength lib)
    (hname : (headerOf lib l.text).name.map tolower = ascii "content-length") {r : RequestLine}
    (hmethod : r.method = lib.post) {body : Bytes} (hbody : body ≠ [])
    (hlength : number (headerOf lib l.text).value = body.length) (hmax : body.length < 2 ^ 31)
    (rest : Bytes) :
    ∃ self, parseLoop lib (init lib) ((⟨r, [l]⟩ : Head).bytes ++ body ++ rest) =
        some ⟨false, (.finish, self), rest⟩ ∧
      self.request.body.map Prod.fst = some body := by
  let h : Head := ⟨r, [l]⟩
  have hheaders : (h.parser lib).request.headerList = [headerOf lib l.text] := by
    rw [headerList_of_head hlib, headersOf_eq hlib]
    simp [h, textOf]
  have hcontent : (h.parser lib).contentLength lib = body.length := by
    rw [contentLength, hheaders, hfinds _ hname, hlength]
  have hfits : FitsInt ((h.parser lib).contentLength lib) := by
    rw [hcontent]
    constructor <;> omega
  have hsize : ((h.parser lib).bodySize lib).toNatClampNeg = body.length := by
    rw [bodySize_eq _ hfits, hcontent, Int.toNat_natCast]
  have hneed : (h.parser lib).isNeedBody lib newLine = true := by
    rw [isNeedBody_iff, hsize]
    exact ⟨hmethod, List.length_pos_of_ne_nil hbody⟩
  have hbodyLength : bodyLength lib h = body.length := (bodyLength_of_need hneed).trans hsize
  let m : Message lib := ⟨h, body, hbodyLength.symm⟩
  refine ⟨m.parser, parseLoop_bytes_append hlib m rest, ?_⟩
  have hpos : bodyLength lib m.head ≠ 0 := (bodyLength_pos_iff.mpr hneed).ne'
  rw [m.parser_request, Message.request, if_neg hpos]
  rfl

/-- A request for two bytes, and the first bytes of the next one. -/
example : ∃ self, parseLoop plainLibrary (init plainLibrary)
      ((⟨postLine, [contentLengthLine]⟩ : Head).bytes ++ ascii "{}" ++ ascii "GET") =
        some ⟨false, (.finish, self), ascii "GET"⟩ ∧
      self.request.body.map Prod.fst = some (ascii "{}") :=
  parseLoop_of_contentLength plainLibrary_documented plainLibrary_findsContentLength (by decide) rfl
    (by decide) (by decide) (by decide) (ascii "GET")

end FirstColon

end CppDemo.Misc.HttpRequest
