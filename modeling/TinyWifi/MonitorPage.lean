import TinyWifi.Escape
import TinyWifi.IwScan
import TinyWifi.Lib.Markup

/-! `pages.rs`: the access points on the monitor page. What they call themselves comes over the
air, from anybody. -/

namespace TinyWifi

open Text Markup

namespace MonitorPage

open Escape

def scanRow (ap : ScannedAp) : Str :=
  "<tr><td><code>".toList ++ escape ap.bssid ++ "</code></td><td>".toList ++ escape ap.ssid ++
    "</td><td>".toList ++ printNat ap.channel.toNat ++ "</td><td>".toList ++ printInt ap.signal ++
    " dBm</td></tr>\n".toList

def tableHead : Str :=
  "<table class=\"tbl\" style=\"margin-top:.75rem\"><thead><tr>".toList ++
    "<th>BSSID</th><th>SSID</th>".toList ++
    "<th><span class=\"t-ru\">Канал</span><span class=\"t-en\">Channel</span></th>".toList ++
    "<th><span class=\"t-ru\">Сигнал</span><span class=\"t-en\">Signal</span></th>".toList ++
    "</tr></thead><tbody>\n".toList

def scanning : Str :=
  "<div class=\"empty\" style=\"margin-top:.5rem\">".toList ++
    "<span class=\"t-ru\">Сканирование…</span>".toList ++
    "<span class=\"t-en\">Scanning…</span></div>".toList

/-- The results of the scan: a table of what was found, or a note while nothing was. -/
def scanHtml (isOn : Bool) (scan : List ScannedAp) : Str :=
  if scan ≠ [] then tableHead ++ scan.flatMap scanRow ++ "</tbody></table>\n".toList
  else if isOn then scanning
  else []

def node (tag text : String) : Node := (tag.toList, text.toList)

def headNodes : List Node :=
  [node "table class=\"tbl\" style=\"margin-top:.75rem\"" "", node "thead" "", node "tr" "",
    node "th" "BSSID", node "/th" "", node "th" "SSID", node "/th" "",
    node "th" "", node "span class=\"t-ru\"" "Канал", node "/span" "",
    node "span class=\"t-en\"" "Channel", node "/span" "", node "/th" "",
    node "th" "", node "span class=\"t-ru\"" "Сигнал", node "/span" "",
    node "span class=\"t-en\"" "Signal", node "/span" "", node "/th" "",
    node "/tr" "", node "/thead" "", node "tbody" "\n"]

/-- The cells of an access point, as they are meant. -/
def rowNodes (ap : ScannedAp) : List Node :=
  [node "tr" "", node "td" "", ("code".toList, ap.bssid), node "/code" "", node "/td" "",
    ("td".toList, ap.ssid), node "/td" "",
    ("td".toList, printNat ap.channel.toNat), node "/td" "",
    ("td".toList, printInt ap.signal ++ " dBm".toList), node "/td" "", node "/tr" "\n"]

def rowTags : List Str :=
  ["tr", "td", "code", "/code", "/td", "td", "/td", "td", "/td", "td", "/td", "/tr"].map
    String.toList

/-- The tags of a row are the page's own. -/
theorem tags_rowNodes (ap : ScannedAp) : (rowNodes ap).map Prod.fst = rowTags := rfl

def tailNodes : List Node := [node "/tbody" "", node "/table" "\n"]

section Written

theorem escape_printNat (n : Nat) : escape (printNat n) = printNat n := by
  have digits : ∀ entry ∈ entities, entry.1.isDigit = false := by decide
  exact escape_of_plain fun entry listed => not_mem_printNat (digits entry listed)

theorem escape_printInt (n : Int) :
    escape (printInt n ++ " dBm".toList) = printInt n ++ " dBm".toList := by
  have apart : ∀ entry ∈ entities, entry.1.isDigit = false ∧ entry.1 ≠ '-' ∧
      entry.1 ∉ " dBm".toList := by decide
  refine escape_of_plain fun entry listed => ?_
  obtain ⟨digit, minus, unit⟩ := apart entry listed
  rw [List.mem_append, not_or]
  exact ⟨not_mem_printInt digit minus, unit⟩

theorem tableHead_eq : tableHead = render escape headNodes := by decide +kernel

theorem scanRow_eq (ap : ScannedAp) : scanRow ap = render escape (rowNodes ap) := by
  have unit : " dBm</td></tr>\n".toList = " dBm".toList ++ "</td></tr>\n".toList := rfl
  have rendered : render escape (rowNodes ap) =
      "<tr><td><code>".toList ++ (escape ap.bssid ++ ("</code></td><td>".toList ++
        (escape ap.ssid ++ ("</td><td>".toList ++ (escape (printNat ap.channel.toNat) ++
          ("</td><td>".toList ++ (escape (printInt ap.signal ++ " dBm".toList) ++
            "</td></tr>\n".toList))))))) := rfl
  rw [rendered, escape_printNat, escape_printInt]
  unfold scanRow
  rw [unit]
  simp only [List.append_assoc]

theorem scanHtml_eq (isOn : Bool) {scan : List ScannedAp} (found : scan ≠ []) :
    scanHtml isOn scan = render escape (headNodes ++ scan.flatMap rowNodes ++ tailNodes) := by
  have rows : scan.flatMap scanRow = render escape (scan.flatMap rowNodes) := by
    rw [render, List.flatMap_assoc]
    exact List.flatMap_congr fun ap _ => scanRow_eq ap
  have closing : "</tbody></table>\n".toList = render escape tailNodes := by decide +kernel
  rw [scanHtml, if_pos found, tableHead_eq, rows, closing, render_append, render_append]

theorem clean_nodes (scan : List ScannedAp) :
    ∀ node ∈ headNodes ++ scan.flatMap rowNodes ++ tailNodes, '<' ∉ node.1 ∧ '>' ∉ node.1 := by
  have head : ∀ node ∈ headNodes, '<' ∉ node.1 ∧ '>' ∉ node.1 := by decide +kernel
  have tail : ∀ node ∈ tailNodes, '<' ∉ node.1 ∧ '>' ∉ node.1 := by decide +kernel
  have row : ∀ tag ∈ rowTags, '<' ∉ tag ∧ '>' ∉ tag := by decide +kernel
  intro node member
  rcases List.mem_append.mp member with member | last
  · rcases List.mem_append.mp member with first | inside
    · exact head node first
    · obtain ⟨ap, -, cell⟩ := List.mem_flatMap.mp inside
      have tag : node.1 ∈ (rowNodes ap).map Prod.fst := List.mem_map_of_mem cell
      rw [tags_rowNodes] at tag
      exact row node.1 tag
  · exact tail node last

end Written

/-- However the access points call themselves, a browser finds the tags of the table, and in its
cells what the scan has found. -/
theorem nodes_scanHtml (isOn : Bool) {scan : List ScannedAp} (found : scan ≠ []) :
    nodes unescape (scanHtml isOn scan) = headNodes ++ scan.flatMap rowNodes ++ tailNodes := by
  rw [scanHtml_eq isOn found]
  exact nodes_render unescape_escape (fun s => (no_markup_escape s).1) (clean_nodes scan)

/-- An access point that would like to run a script. -/
def hostile : ScannedAp :=
  ⟨"aa:bb:cc:dd:ee:ff(on".toList, "</td><script src=\"//x\">&lt;".toList, 6, -40⟩

theorem nodes_scanHtml_hostile : nodes unescape (scanHtml true [hostile]) =
    headNodes ++ [hostile].flatMap rowNodes ++ tailNodes :=
  nodes_scanHtml true (List.cons_ne_nil hostile [])

end MonitorPage

end TinyWifi
