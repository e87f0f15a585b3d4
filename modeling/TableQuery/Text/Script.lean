import TableQuery.Text.Category

/-! The script of every character, and characters that more scripts than one use. -/

namespace TableQuery.Text
namespace Script

/-- Names of scripts in small letters without separators, first that of the table below. -/
def names : List (List String) := [
  ["adlm", "adlam"], ["aghb", "caucasianalbanian"], ["ahom"], ["arab", "arabic"],
  ["armi", "imperialaramaic"], ["armn", "armenian"], ["avst", "avestan"], ["bali", "balinese"],
  ["bamu", "bamum"], ["bass", "bassavah"], ["batk", "batak"], ["beng", "bengali"],
  ["bhks", "bhaiksuki"], ["bopo", "bopomofo"], ["brah", "brahmi"], ["brai", "braille"],
  ["bugi", "buginese"], ["buhd", "buhid"], ["cakm", "chakma"], ["cans", "canadianaboriginal"],
  ["cari", "carian"], ["cham"], ["cher", "cherokee"], ["chrs", "chorasmian"],
  ["copt", "coptic", "qaac"], ["cpmn", "cyprominoan"], ["cprt", "cypriot"], ["cyrl", "cyrillic"],
  ["deva", "devanagari"], ["diak", "divesakuru"], ["dogr", "dogra"], ["dsrt", "deseret"],
  ["dupl", "duployan"], ["egyp", "egyptianhieroglyphs"], ["elba", "elbasan"], ["elym", "elymaic"],
  ["ethi", "ethiopic"], ["gara", "garay"], ["geor", "georgian"], ["glag", "glagolitic"],
  ["gong", "gunjalagondi"], ["gonm", "masaramgondi"], ["goth", "gothic"], ["gran", "grantha"],
  ["grek", "greek"], ["gujr", "gujarati"], ["gukh", "gurungkhema"], ["guru", "gurmukhi"],
  ["hang", "hangul"], ["hani", "han"], ["hano", "hanunoo"], ["hatr", "hatran"],
  ["hebr", "hebrew"], ["hira", "hiragana"], ["hluw", "anatolianhieroglyphs"],
  ["hmng", "pahawhhmong"], ["hmnp", "nyiakengpuachuehmong"], ["hung", "oldhungarian"],
  ["ital", "olditalic"], ["java", "javanese"], ["kali", "kayahli"], ["kana", "katakana"],
  ["kawi"], ["khar", "kharoshthi"], ["khmr", "khmer"], ["khoj", "khojki"],
  ["kits", "khitansmallscript"], ["knda", "kannada"], ["krai", "kiratrai"], ["kthi", "kaithi"],
  ["lana", "taitham"], ["laoo", "lao"], ["latn", "latin"], ["lepc", "lepcha"], ["limb", "limbu"],
  ["lina", "lineara"], ["linb", "linearb"], ["lisu"], ["lyci", "lycian"], ["lydi", "lydian"],
  ["mahj", "mahajani"], ["maka", "makasar"], ["mand", "mandaic"], ["mani", "manichaean"],
  ["marc", "marchen"], ["medf", "medefaidrin"], ["mend", "mendekikakui"],
  ["merc", "meroiticcursive"], ["mero", "meroitichieroglyphs"], ["mlym", "malayalam"], ["modi"],
  ["mong", "mongolian"], ["mroo", "mro"], ["mtei", "meeteimayek"], ["mult", "multani"],
  ["mymr", "myanmar"], ["nagm", "nagmundari"], ["nand", "nandinagari"],
  ["narb", "oldnortharabian"], ["nbat", "nabataean"], ["newa"], ["nkoo", "nko"],
  ["nshu", "nushu"], ["ogam", "ogham"], ["olck", "olchiki"], ["onao", "olonal"],
  ["orkh", "oldturkic"], ["orya", "oriya"], ["osge", "osage"], ["osma", "osmanya"],
  ["ougr", "olduyghur"], ["palm", "palmyrene"], ["pauc", "paucinhau"], ["perm", "oldpermic"],
  ["phag", "phagspa"], ["phli", "inscriptionalpahlavi"], ["phlp", "psalterpahlavi"],
  ["phnx", "phoenician"], ["plrd", "miao"], ["prti", "inscriptionalparthian"], ["rjng", "rejang"],
  ["rohg", "hanifirohingya"], ["runr", "runic"], ["samr", "samaritan"],
  ["sarb", "oldsoutharabian"], ["saur", "saurashtra"], ["sgnw", "signwriting"],
  ["shaw", "shavian"], ["shrd", "sharada"], ["sidd", "siddham"], ["sind", "khudawadi"],
  ["sinh", "sinhala"], ["sogd", "sogdian"], ["sogo", "oldsogdian"], ["sora", "sorasompeng"],
  ["soyo", "soyombo"], ["sund", "sundanese"], ["sunu", "sunuwar"], ["sylo", "sylotinagri"],
  ["syrc", "syriac"], ["tagb", "tagbanwa"], ["takr", "takri"], ["tale", "taile"],
  ["talu", "newtailue"], ["taml", "tamil"], ["tang", "tangut"], ["tavt", "taiviet"],
  ["telu", "telugu"], ["tfng", "tifinagh"], ["tglg", "tagalog"], ["thaa", "thaana"], ["thai"],
  ["tibt", "tibetan"], ["tirh", "tirhuta"], ["tnsa", "tangsa"], ["todr", "todhri"], ["toto"],
  ["tutg", "tulutigalari"], ["ugar", "ugaritic"], ["vaii", "vai"], ["vith", "vithkuqi"],
  ["wara", "warangciti"], ["wcho", "wancho"], ["xpeo", "oldpersian"], ["xsux", "cuneiform"],
  ["yezi", "yezidi"], ["yiii", "yi"], ["zanb", "zanabazarsquare"], ["zinh", "inherited", "qaai"],
  ["zyyy", "common"]]

/-- The first name of a script. -/
def ofName? (name : String) : Option String :=
  (names.find? fun ns => ns.contains name).bind List.head?

/-- Characters one after another that all are of one script, apart from unassigned ones. -/
structure Run where
  length : Nat
  script : String

/-- Four letters and a hexadecimal length, which is left out for a single character. -/
def Run.ofText (s : String) : Run :=
  let cs := s.toList
  { length := if cs.length = 4 then 1 else hexValue (cs.drop 4)
    script := String.ofList ((cs.take 4).map Char.toLower) }

def runs : List Run := lines.flatMap fun line => (line.splitOn " ").map Run.ofText
where
  lines : List String := [
    "Zyyy41 Latn1A Zyyy6 Latn1A Zyyy2F Latn ZyyyF Latn Zyyy5 Latn17 Zyyy Latn1F Zyyy Latn1C1",
    "Zyyy27 Latn5 Zyyy5 Bopo2 Zyyy14 Zinh70 Grek4 Zyyy Grek9 Zyyy Grek6 Zyyy Grek Zyyy Grek5A",
    "CoptE Grek10 Cyrl85 Zinh2 CyrlAA Armn60 Hebr6F Arab5 Zyyy Arab6 Zyyy ArabE Zyyy Arab3 Zyyy",
    "Arab20 Zyyy ArabA ZinhB Arab1A Zinh Arab6C Zyyy Arab22 Syrc50 Arab30 Thaa40 Nkoo40 Samr40",
    "Mand20 Syrc10 Arab72 Zyyy Arab1D Deva51 Zinh4 DevaF Zyyy2 Deva1A Beng81 Guru80 Gujr80",
    "Orya81 Taml7E Telu80 Knda80 Mlym81 Sinh80 Thai3E Zyyy Thai41 Laoo7F TibtD5 Zyyy4 Tibt27",
    "MymrA0 Geor5B Zyyy Geor4 Hang100 Ethi1A0 Cher60 Cans280 Ogam20 Runr4B Zyyy3 Runr12 Tglg20",
    "Hano15 ZyyyB Buhd20 Tagb20 Khmr80 Mong2 Zyyy2 Mong Zyyy MongAA Cans50 Limb50 Tale30 Talu60",
    "Khmr20 Bugi20 Lana90 Zinh50 Bali80 Sund40 Batk40 Lepc50 Olck30 Cyrl10 Geor30 Sund10 Zinh3",
    "Zyyy ZinhD Zyyy Zinh7 Zyyy4 Zinh Zyyy6 Zinh Zyyy3 Zinh2 Zyyy6 Latn26 Grek5 Cyrl Latn31",
    "Grek5 Latn4 Grek5 LatnD Cyrl Latn46 Grek Zinh40 Latn100 Grek100 ZyyyC Zinh2 Zyyy63 Latn3",
    "ZyyyB Latn Zyyy10 Latn10 Zyyy30 Zinh30 Zyyy26 Grek Zyyy3 Latn2 Zyyy6 Latn Zyyy1B Latn",
    "Zyyy11 Latn29 Zyyy677 Brai100 Zyyy300 Glag60 Latn20 Copt80 Geor30 Tfng50 Ethi60 Cyrl20",
    "Zyyy80 Hani170 Zyyy15 Hani Zyyy Hani Zyyy19 Hani9 Zinh4 Hang2 Zyyy8 Hani4 Zyyy5 Hira58",
    "Zinh2 Zyyy2 Hira3 Zyyy Kana5A Zyyy2 Kana8 Bopo2C Hang5F Zyyy10 Bopo20 Zyyy30 Kana10 Hang20",
    "Zyyy40 Hang1F Zyyy51 Kana2F Zyyy Kana58 ZyyyA8 Hani19C0 Zyyy40 Hani5200 Yiii4D0 Lisu30",
    "Vaii140 Cyrl60 Bamu60 Zyyy22 Latn66 Zyyy3 Latn75 Sylo30 Zyyy10 Phag40 Saur60 Deva20 Kali2E",
    "Zyyy Kali Rjng30 Hang20 Java4F Zyyy Java10 Mymr20 Cham60 Mymr20 Tavt60 Mtei21 Ethi2F Latn2B",
    "Zyyy Latn9 Grek Latn4 Zyyy6 Cher50 Mtei40 Hang4D00 Hani200 Latn13 ArmnA Hebr33 Arab1EE",
    "Zyyy2 ArabC0 Zinh10 Zyyy10 ZinhE Cyrl2 Zyyy40 Arab8F Zyyy22 Latn1A Zyyy6 Latn1A ZyyyB KanaA",
    "Zyyy Kana2D Zyyy2 Hang40 Zyyy20 Linb100 Zyyy40 Grek50 Zyyy10 Grek30 Zyyy2D Zinh83 Lyci20",
    "Cari40 Zinh Zyyy1F Ital30 Goth20 Perm30 Ugar20 Xpeo60 Dsrt50 Shaw30 Osma30 Osge50 Elba30",
    "Aghb40 Vith50 Todr40 Lina180 Latn80 Cprt40 Armi20 Palm20 Nbat60 Hatr20 Phnx20 Lydi60 Mero20",
    "Merc60 Khar60 Sarb20 Narb40 Mani40 Avst40 Prti20 Phli20 Phlp80 Orkh80 Hung80 Rohg40 Gara120",
    "Arab20 Yezi42 Arab3E Sogo30 Sogd40 Ougr40 Chrs30 Elym20 Brah80 Kthi50 Sora30 Cakm50 Mahj30",
    "Shrd61 Sinh1F Khoj80 Mult30 Sind50 Gran3B Zinh Gran44 Tutg80 Newa80 Tirh100 Sidd80 Modi60",
    "Mong20 Takr50 Mymr30 Ahom100 DogrA0 Wara60 DiakA0 Nand60 Zanb50 Soyo60 Cans10 Pauc40 DevaC0",
    "Sunu40 Bhks70 Marc90 Gonm60 Gong180 Maka20 KawiB0 Lisu10 Taml40 XsuxF90 Cpmn70 Egyp1400",
    "Hluw1D00 Gukh700 Bamu240 Mroo30 Tnsa60 Bass30 Hmng240 Krai100 MedfC0 PlrdE0 Tang Nshu Hani2",
    "KitsC Hani10 Tang1B00 Kits200 Tang22F0 Kana11 Hira11F Kana12 Hira23 Kana1B NshuA90 DuplA0",
    "Zyyy1260 Zinh50 Zyyy217 Zinh3 Zyyy11 Zinh8 Zyyy2 Zinh7 Zyyy1E Zinh4 Zyyy52 GrekC0 Zyyy540",
    "Sgnw700 Latn100 Glag30 CyrlD0 Hmnp190 Toto30 Wcho210 Nagm100 Onao210 Ethi20 Mend100 Adlm371",
    "Zyyy18F Arab200 Zyyy200 Hira ZyyyDFF HaniC0001 ZyyyFF Zinh2FF00"]

def ofRuns : List Run → Nat → Option String
  | [], _ => none
  | r :: rs, n => if n < r.length then some r.script else ofRuns rs (n - r.length)

/-- Ranges of characters with the scripts that use them, where these are not just their own. -/
structure Shared where
  range : Nat × Nat
  scripts : List String

/-- Two hexadecimal numbers and the names of scripts. -/
def Shared.ofText (s : String) : Shared :=
  match s.splitOn " " with
  | a :: b :: names => ⟨(hexValue a.toList, hexValue b.toList), names⟩
  | _ => ⟨(1, 0), []⟩

def shared : List Shared := lines.map Shared.ofText
where
  lines : List String := [
    "B7 B7 avst cari copt dupl elba geor glag gong goth grek hani latn lydi mahj perm shaw",
    "2BC 2BC beng cyrl deva latn lisu thai toto",
    "2C7 2C7 bopo latn",
    "2C9 2CB bopo latn",
    "2CD 2CD latn lisu",
    "2D7 2D7 latn thai",
    "2D9 2D9 bopo latn",
    "300 300 cher copt cyrl grek latn perm sunu tale",
    "301 301 cher cyrl grek latn osge sunu tale todr",
    "302 302 cher cyrl latn tfng",
    "303 303 glag latn sunu syrc thai",
    "304 304 aghb cher copt cyrl goth grek latn osge syrc tfng todr",
    "305 305 copt elba glag goth kana latn",
    "306 306 cyrl grek latn perm tfng",
    "307 307 copt dupl hebr latn perm syrc tale tfng todr",
    "308 308 armn cyrl dupl goth grek hebr latn perm syrc tale tfng",
    "309 309 latn tfng",
    "30A 30A dupl latn syrc",
    "30B 30B cher cyrl latn osge",
    "30C 30C cher latn tale",
    "30D 30D latn sunu",
    "30E 30E ethi latn",
    "310 310 latn sunu",
    "311 311 cyrl latn todr",
    "313 313 grek latn perm todr",
    "323 323 cher dupl kana latn syrc tfng",
    "324 324 cher dupl latn syrc",
    "325 325 latn syrc",
    "32D 32D latn sunu syrc",
    "32E 32E latn syrc",
    "330 330 cher latn syrc",
    "331 331 aghb cher goth latn sunu syrc thai",
    "342 342 grek",
    "345 345 grek",
    "358 358 latn osge",
    "35E 35E aghb latn todr",
    "363 36F latn",
    "374 375 copt grek",
    "483 483 cyrl perm",
    "484 484 cyrl glag",
    "485 486 cyrl latn",
    "487 487 cyrl glag",
    "589 589 armn geor glag",
    "60C 60C arab gara nkoo rohg syrc thaa yezi",
    "61B 61B arab gara nkoo rohg syrc thaa yezi",
    "61C 61C arab syrc thaa",
    "61F 61F adlm arab gara nkoo rohg syrc thaa yezi",
    "640 640 adlm arab mand mani ougr phlp rohg sogd syrc",
    "64B 655 arab syrc",
    "660 669 arab thaa yezi",
    "670 670 arab syrc",
    "6D4 6D4 arab rohg",
    "951 951 beng deva gran gujr guru knda latn mlym nand newa orya shrd taml telu tirh",
    "952 952 beng deva gran gujr guru knda latn mlym newa orya taml telu tirh",
    "964 964 beng deva dogr gong gonm gran gujr guru knda mahj mlym nand onao orya sind sinh sylo takr taml telu tirh",
    "965 965 beng deva dogr gong gonm gran gujr gukh guru knda limb mahj mlym nand onao orya sind sinh sylo takr taml telu tirh",
    "966 96F deva dogr kthi mahj",
    "9E6 9EF beng cakm sylo",
    "A66 A6F guru mult",
    "AE6 AEF gujr khoj",
    "BE6 BF3 gran taml",
    "CE6 CEF knda nand tutg",
    "1040 1049 cakm mymr tale",
    "10FB 10FB geor glag latn",
    "16EB 16ED runr",
    "1735 1736 buhd hano tagb tglg",
    "1802 1803 mong phag",
    "1805 1805 mong phag",
    "1CD0 1CD0 beng deva gran knda",
    "1CD1 1CD1 deva",
    "1CD2 1CD2 beng deva gran knda",
    "1CD3 1CD3 deva gran knda",
    "1CD4 1CD4 deva",
    "1CD5 1CD5 beng deva newa telu tirh",
    "1CD6 1CD6 beng deva telu",
    "1CD7 1CD7 deva newa shrd",
    "1CD8 1CD8 beng deva newa telu",
    "1CD9 1CD9 deva shrd",
    "1CDA 1CDA deva knda mlym orya taml telu",
    "1CDB 1CDB deva",
    "1CDC 1CDD deva shrd",
    "1CDE 1CDF deva",
    "1CE0 1CE0 deva shrd",
    "1CE1 1CE1 beng deva",
    "1CE2 1CE2 deva newa tirh",
    "1CE3 1CE8 deva",
    "1CE9 1CE9 deva nand newa",
    "1CEA 1CEA beng deva shrd",
    "1CEB 1CEB deva newa",
    "1CEC 1CEC deva",
    "1CED 1CED beng deva newa shrd",
    "1CEE 1CF1 deva",
    "1CF2 1CF2 beng deva gran knda mlym nand orya sinh telu tirh tutg",
    "1CF3 1CF3 deva gran",
    "1CF4 1CF4 deva gran knda tutg",
    "1CF5 1CF6 beng deva",
    "1CF7 1CF7 beng",
    "1CF8 1CF9 deva gran",
    "1CFA 1CFA nand",
    "1DC0 1DC1 grek",
    "1DF8 1DF8 cyrl latn syrc",
    "1DFA 1DFA syrc",
    "202F 202F latn mong phag",
    "204F 204F adlm arab",
    "205A 205A cari geor glag hung lyci orkh",
    "205D 205D cari grek hung mero",
    "20F0 20F0 deva gran latn",
    "2E17 2E17 copt latn",
    "2E30 2E30 avst orkh",
    "2E31 2E31 avst cari geor hung kthi lydi samr",
    "2E3C 2E3C dupl",
    "2E41 2E41 adlm arab hung",
    "2E43 2E43 cyrl glag",
    "2FF0 2FFF hani tang",
    "3001 3001 bopo hang hani hira kana mong yiii",
    "3002 3002 bopo hang hani hira kana mong phag yiii",
    "3003 3003 bopo hang hani hira kana",
    "3006 3006 hani",
    "3008 3009 bopo hang hani hira kana mong tibt yiii",
    "300A 300B bopo hang hani hira kana lisu mong tibt yiii",
    "300C 3011 bopo hang hani hira kana yiii",
    "3013 3013 bopo hang hani hira kana",
    "3014 301B bopo hang hani hira kana yiii",
    "301C 301F bopo hang hani hira kana",
    "302A 302D bopo hani",
    "3030 3030 bopo hang hani hira kana",
    "3031 3035 hira kana",
    "3037 3037 bopo hang hani hira kana",
    "303C 303D hani hira kana",
    "303E 303F hani",
    "3099 309C hira kana",
    "30A0 30A0 hira kana",
    "30FB 30FB bopo hang hani hira kana yiii",
    "30FC 30FC hira kana",
    "3190 319F hani",
    "31C0 31E5 hani",
    "31EF 31EF hani tang",
    "3220 3247 hani",
    "3280 32B0 hani",
    "32C0 32CB hani",
    "32FF 32FF hani",
    "3358 3370 hani",
    "337B 337F hani",
    "33E0 33FE hani",
    "A66F A66F cyrl glag",
    "A700 A707 hani latn",
    "A830 A832 deva dogr gujr guru khoj knda kthi mahj mlym modi nand shrd sind takr tirh tutg",
    "A833 A835 deva dogr gujr guru khoj knda kthi mahj modi nand shrd sind takr tirh tutg",
    "A836 A837 deva dogr gujr guru khoj kthi mahj modi sind takr tirh",
    "A838 A838 deva dogr gujr guru khoj kthi mahj modi shrd sind takr tirh",
    "A839 A839 deva dogr gujr guru khoj kthi mahj modi sind takr tirh",
    "A8F1 A8F1 beng deva tutg",
    "A8F3 A8F3 deva taml",
    "A92E A92E kali latn mymr",
    "A9CF A9CF bugi java",
    "FD3E FD3F arab nkoo",
    "FDF2 FDF2 arab thaa",
    "FDFD FDFD arab thaa",
    "FE45 FE46 bopo hang hani hira kana",
    "FF61 FF65 bopo hang hani hira kana yiii",
    "FF70 FF70 hira kana",
    "FF9E FF9F hira kana",
    "10100 10101 cpmn cprt linb",
    "10102 10102 cprt linb",
    "10107 10133 cprt lina linb",
    "10137 1013F cprt linb",
    "102E0 102FB arab copt",
    "10AF2 10AF2 mani ougr",
    "11301 11301 gran taml",
    "11303 11303 gran taml",
    "1133B 1133C gran taml",
    "11FD0 11FD1 gran taml",
    "11FD3 11FD3 gran taml",
    "1BCA0 1BCA3 dupl",
    "1D360 1D371 hani",
    "1F250 1F251 hani"]

end Script

/-- Nothing, for what is unassigned, private or no character. -/
def script? (c : Char) : Option String :=
  match category c with
  | .unassigned | .surrogate | .privateUse => none
  | _ => Script.ofRuns Script.runs c.toNat

/-- The scripts that use a character. -/
def scriptsOf (c : Char) : List String :=
  match Script.shared.find? fun s => s.range.1 ≤ c.toNat && c.toNat ≤ s.range.2 with
  | some s => s.scripts
  | none => (script? c).toList

end TableQuery.Text
