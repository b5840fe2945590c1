import DocSelect.Regex.Property.Table

/-!
# Scripts

Every character belongs to one script; those that serve many are common, and marks that take on the
script of their letter are inherited. Some characters are used with a few further scripts.
-/
namespace DocSelect.Regex.Property

structure Script where
  names : List String
  /-- the characters that belong to the script -/
  own : Table
  /-- characters of others that are used with it -/
  further : Table

/-- The scripts that characters belong to on their own account. -/
def scripts : List Script := [
  ⟨["adlam", "adlm"],
    .listed "hupg0kb4941",
    .listed "mhf0i00hqge0tv10"⟩,
  ⟨["ahom"],
    .listed "hhng0ha2e4h6",
    .listed ""⟩,
  ⟨["anatolianhieroglyphs", "hluw"],
    .listed "hkkg0ik6",
    .listed ""⟩,
  ⟨["arabic", "arab"],
    .listed "mg04151d121hf19bh91mb1i1l0ifv0he115ka1hcvil0n2h0hma2kf2j570i0fn041o6vm3hek32j73tvg0
       31ha1110201913101060401010121110201010101011102316131310191h052141h0j41",
    .listed "mgc0e030i00aaha0hpte0tv10suvc1lq0hb"⟩,
  ⟨["armenian", "armn"],
    .listed "lj1i52j122vlo34",
    .listed "jg80"⟩,
  ⟨["avestan", "avst"],
    .listed "hgrg0j536",
    .listed "r70itn81"⟩,
  ⟨["balinese", "bali"],
    .listed "hrg0kc1j1",
    .listed ""⟩,
  ⟨["bamum", "bamu"],
    .listed "qmq0l7shg8ij8",
    .listed ""⟩,
  ⟨["bassavah", "bass"],
    .listed "hmqt0hd25",
    .listed ""⟩,
  ⟨["batak", "batk"],
    .listed "hrs0j383",
    .listed ""⟩,
  ⟨["bengali", "beng"],
    .listed "po0317212h51610332821238041142h8",
    .listed "irc0mp41h11hjma01021108080204022orv90"⟩,
  ⟨["bhaiksuki", "bhks"],
    .listed "hhsg081ic1dahc",
    .listed ""⟩,
  ⟨["bopomofo", "bopo"],
    .listed "iua1iuh9ian0hf",
    .listed "is7012d0iti72491ca32060s30stk91hha4"⟩,
  ⟨["brahmi", "brah"],
    .listed "hhgg0kd4i390",
    .listed ""⟩,
  ⟨["braille", "brai"],
    .listed "iog0vf",
    .listed ""⟩,
  ⟨["buginese", "bugi"],
    .listed "hqg0hb21",
    .listed "qpsf0"⟩,
  ⟨["buhid", "buhd"],
    .listed "hnk0h3",
    .listed "hnj51"⟩,
  ⟨["canadianaboriginal", "cans"],
    .listed "hkg0infij0k5hghraf",
    .listed ""⟩,
  ⟨["carian", "cari"],
    .listed "hgiq0j0",
    .listed "r70hvq2020tt30"⟩,
  ⟨["caucasianalbanian", "aghb"],
    .listed "hglj0j3b0",
    .listed "jg40ic0ic0"⟩,
  ⟨["chakma", "cakm"],
    .listed "hhhg0j41h1",
    .listed "pu69ml09"⟩,
  ⟨["cham"],
    .listed "qqg0j69d2923",
    .listed ""⟩,
  ⟨["cherokee", "cher"],
    .listed "hjq0l525pnn2kf",
    .listed "jg021061h61b1"⟩,
  ⟨["chorasmian", "chrs"],
    .listed "hgvr0hb",
    .listed ""⟩,
  ⟨["coptic", "copt", "qaac"],
    .listed "ju2diop0n356",
    .listed "r70ik803110mc1iqq10tks8hb"⟩,
  ⟨["cuneiform", "xsux"],
    .listed "higg0jp9m6me14bs3",
    .listed ""⟩,
  ⟨["cypriot", "cprt"],
    .listed "hgog05201ib113020",
    .listed "hghg024ic38"⟩,
  ⟨["cyprominoan", "cpmn"],
    .listed "hivp0m2",
    .listed "hghg01"⟩,
  ⟨["cyrillic", "cyrl"],
    .listed "kg0o42q8hnl0aq00kc0hgm7hfnok0lflnoe1uig0jdi10",
    .listed "irc0k321010102050hn31hpn10hgka0"⟩,
  ⟨["deseret", "dsrt"],
    .listed "hgkg0kf",
    .listed ""⟩,
  ⟨["devanagari", "deva"],
    .listed "pg0l04e2h9pvm0hfnig09",
    .listed "irc0mp41h11hjmai611jv60onjf9"⟩,
  ⟨["divesakuru", "diak"],
    .listed "hhpg062027111hd112b99",
    .listed ""⟩,
  ⟨["dogra", "dogr"],
    .listed "hhog0jb",
    .listed "pm4bpus09"⟩,
  ⟨["duployan", "dupl"],
    .listed "hrsg0ma5c387923",
    .listed "r70ikf110h81irh70houm33"⟩,
  ⟨["egyptianhieroglyphs", "egyp"],
    .listed "hjgg0kl5avpa",
    .listed ""⟩,
  ⟨["elbasan", "elba"],
    .listed "hglg0i7",
    .listed "r70ikd0"⟩,
  ⟨["elymaic", "elym"],
    .listed "hgvu0h6",
    .listed ""⟩,
  ⟨["ethiopic", "ethi"],
    .listed "hig0k8132610132i8132i0132610132e1j8132k22hf3h9hpu6h69616161616161616nti2525259616hj
       sr1613111e",
    .listed "jge0"⟩,
  ⟨["garay", "gara"],
    .listed "hgtk0i53hc81",
    .listed "mgc0e030"⟩,
  ⟨["georgian", "geor"],
    .listed "hgq0i510502ia13rp0ia22hgk0i51050",
    .listed "r70kt10rn10vle0tt60"⟩,
  ⟨["glagolitic", "glag"],
    .listed "isg0lfhrjq061h0261114",
    .listed "r70ikb010hne020hg10rn10vle0tu80noib0"⟩,
  ⟨["gothic", "goth"],
    .listed "hgjj0ha",
    .listed "r70ikc120i80"⟩,
  ⟨["grantha", "gran"],
    .listed "hhjg0317212h51611142821222060562634",
    .listed "pl11h11io0dhgtc011he231jv60vika0sp4110"⟩,
  ⟨["greek", "grek"],
    .listed "jn03122310401012101h31jeefhpi64j2444l40hk0h5252i525271010101he2j41e1d251h22218hi70o
       qje0lltakeh10tglfk5",
    .listed "r70ik81201010a0ie020ie0hqkb1ipb0"⟩,
  ⟨["gujarati", "gujr"],
    .listed "qo1218121h516111429121220f32b76",
    .listed "pl11h11pusa9"⟩,
  ⟨["gunjalagondi", "gong"],
    .listed "hhtm05111i4111579",
    .listed "r70oqc1"⟩,
  ⟨["gurmukhi", "guru"],
    .listed "qg1215412h516111111201441223073107h0",
    .listed "pl11h11pusa9"⟩,
  ⟨["gurungkhema", "gukh"],
    .listed "hmhg0j9",
    .listed "pm50"⟩,
  ⟨["han", "hani"],
    .listed "iuo0h91l8ct5if010h98e3js4hprfk0lhvflpg0hmd2m9nlg81c1pggeqmtfi0hgj96td2hmo1ehtj0fimd
       pq2ihdlu2hjka5hglf",
    .listed "r70ivj8f1220191ca3206043rb0p4fi0i590j0i7j8j0fbj30l8h8a4m0henjg17lnjd1hha4tjvah1hute
       1"⟩,
  ⟨["hangul", "hang"],
    .listed "hhg0vfhuie1hg1ldn1hek1henmu1hcio3irq3ch64j0inq4he35252522",
    .listed "jgg12491ch0060s30stk91hha4"⟩,
  ⟨["hanifirohingya", "rohg"],
    .listed "hgtg0i789",
    .listed "mgc0e030i00p30"⟩,
  ⟨["hanunoo", "hano"],
    .listed "hni0h4",
    .listed "hnj51"⟩,
  ⟨["hatran", "hatr"],
    .listed "hgou0h21154",
    .listed ""⟩,
  ⟨["hebrew", "hebr"],
    .listed "lp1j68ha45vli8h91410111119",
    .listed "jg71"⟩,
  ⟨["hiragana", "hira"],
    .listed "jgk1l562hnvm1hheh20hd2kgqd0",
    .listed "jgg12491ch051041lb330la1stk81hha4a0id1"⟩,
  ⟨["imperialaramaic", "armi"],
    .listed "hgok0h518",
    .listed ""⟩,
  ⟨["inscriptionalpahlavi", "phli"],
    .listed "hgrm0h257",
    .listed ""⟩,
  ⟨["inscriptionalparthian", "prti"],
    .listed "hgrk0h527",
    .listed ""⟩,
  ⟨["javanese", "java"],
    .listed "qpo0kd2941",
    .listed "qpsf0"⟩,
  ⟨["kaithi", "kthi"],
    .listed "hhgo0k2a0",
    .listed "pm69iks10npve9"⟩,
  ⟨["kannada", "knda"],
    .listed "so0c121h619142812137161132912",
    .listed "pl11h11hjma01160h7010orjb5"⟩,
  ⟨["katakana", "kana"],
    .listed "jgq1l922v0ft0ie1l7ssge91icrgl23161110hhf2j20e3",
    .listed "jg50hd0istd2491ch051041lb330la1stk81hha4a0id1"⟩,
  ⟨["kawi"],
    .listed "hhvg0h01i83hc",
    .listed ""⟩,
  ⟨["kayahli", "kali"],
    .listed "qpg0id10",
    .listed "qpie0"⟩,
  ⟨["kharoshthi", "khar"],
    .listed "hgqg031157121hc224978",
    .listed ""⟩,
  ⟨["khitansmallscript", "kits"],
    .listed "hmvu40hrhbht5i90",
    .listed ""⟩,
  ⟨["khmer", "khmr"],
    .listed "hno0ld2969hu6hf",
    .listed ""⟩,
  ⟨["khojki", "khoj"],
    .listed "hhig0h11ie",
    .listed "qu69ptk09"⟩,
  ⟨["khudawadi", "sind"],
    .listed "hhir0ja59",
    .listed "pm41pusa9"⟩,
  ⟨["kiratrai", "krai"],
    .listed "hmtk0j9",
    .listed ""⟩,
  ⟨["lao", "laoo"],
    .listed "uo1110141h7101h62410161923",
    .listed ""⟩,
  ⟨["latin", "latn"],
    .listed "k1h96h9if0f05h61he1hs0i74hqhbi56j0535c1k5k1vfhn10d0h0cod160hb0h1i8qt7hfnqq2m53k2211
       017h5djj0ia1813kvp66khah96h9oi551i918tnk5he65",
    .listed "r70ig40a012109010i6e1110f27111i60504chh51ksa1nq80svc0ij60s00ti60nou87ii60"⟩,
  ⟨["lepcha", "lepc"],
    .listed "hsg0j73e32",
    .listed ""⟩,
  ⟨["limbu", "limb"],
    .listed "hpg0he1b4b403b",
    .listed "pm50"⟩,
  ⟨["lineara", "lina"],
    .listed "hgmg0hj69h5a7",
    .listed "hghg7ic"⟩,
  ⟨["linearb", "linb"],
    .listed "hggg0b1h91h2111e2di2na",
    .listed "hghg024ic38"⟩,
  ⟨["lisu"],
    .listed "qkt0ifnqr00",
    .listed "irc0h00itjc1"⟩,
  ⟨["lycian", "lyci"],
    .listed "hgio0hc",
    .listed "igla0"⟩,
  ⟨["lydian", "lydi"],
    .listed "hgpi0h950",
    .listed "r70itn90"⟩,
  ⟨["mahajani", "mahj"],
    .listed "hhhl0i6",
    .listed "r70oqcbpus09"⟩,
  ⟨["makasar", "maka"],
    .listed "hhuu0h8",
    .listed ""⟩,
  ⟨["malayalam", "mlym"],
    .listed "tg0c121j212154f2h9",
    .listed "pl11h11hjn40h70orjd2"⟩,
  ⟨["mandaic", "mand"],
    .listed "ok0hb20",
    .listed "mk00"⟩,
  ⟨["manichaean", "mani"],
    .listed "hgqs0i64b",
    .listed "mk00"⟩,
  ⟨["marchen", "marc"],
    .listed "hhsn0hf2h51d",
    .listed ""⟩,
  ⟨["masaramgondi", "gonm"],
    .listed "hhtg06111ib30111889",
    .listed "pm41"⟩,
  ⟨["medefaidrin", "medf"],
    .listed "hmuk0la",
    .listed ""⟩,
  ⟨["meeteimayek", "mtei"],
    .listed "qqu0h6s9id29",
    .listed ""⟩,
  ⟨["mendekikakui", "mend"],
    .listed "huog0s42f",
    .listed ""⟩,
  ⟨["meroiticcursive", "merc"],
    .listed "hgpq0h74h32id",
    .listed ""⟩,
  ⟨["meroitichieroglyphs", "mero"],
    .listed "hgpo0hf",
    .listed "igld0"⟩,
  ⟨["miao", "plrd"],
    .listed "hmvg0ka4j87h0",
    .listed ""⟩,
  ⟨["modi"],
    .listed "hhmg0k4b9",
    .listed "qoj09"⟩,
  ⟨["mongolian", "mong"],
    .listed "hog01201h36l87iavtr5c",
    .listed "hog2110oi90vt1153"⟩,
  ⟨["mro", "mroo"],
    .listed "hmqk0he1941",
    .listed ""⟩,
  ⟨["multani", "mult"],
    .listed "hhio0610131e1a",
    .listed "qm69"⟩,
  ⟨["myanmar", "mymr"],
    .listed "hgg0pfppk0hem1hfmsl0h3",
    .listed "qpie0"⟩,
  ⟨["nabataean", "nbat"],
    .listed "hgoo0he88",
    .listed ""⟩,
  ⟨["nagmundari", "nagm"],
    .listed "hukt0i9",
    .listed ""⟩,
  ⟨["nandinagari", "nand"],
    .listed "hhpq072id2a",
    .listed "pl10h21jo09vv908070orj55"⟩,
  ⟨["newtailue", "talu"],
    .listed "hpo0ib4h96a31",
    .listed ""⟩,
  ⟨["newa"],
    .listed "hhkg0lb14",
    .listed "pl11hjo201190601010"⟩,
  ⟨["nko", "nkoo"],
    .listed "ns0ja22",
    .listed "mgc0e030vnhe1"⟩,
  ⟨["nushu", "nshu"],
    .listed "hmvu10khoehob",
    .listed ""⟩,
  ⟨["nyiakengpuachuehmong", "hmnp"],
    .listed "huhg0ic3d2941",
    .listed ""⟩,
  ⟨["ogham", "ogam"],
    .listed "hmo0hc",
    .listed ""⟩,
  ⟨["olchiki", "olck"],
    .listed "hsl0if",
    .listed ""⟩,
  ⟨["olonal", "onao"],
    .listed "hult0ia40",
    .listed "pm41"⟩,
  ⟨["oldhungarian", "hung"],
    .listed "hgso0j2dj275",
    .listed "igla020tt30f0"⟩,
  ⟨["olditalic", "ital"],
    .listed "hgjg0i392",
    .listed ""⟩,
  ⟨["oldnortharabian", "narb"],
    .listed "hgqo0hf",
    .listed ""⟩,
  ⟨["oldpermic", "perm"],
    .listed "hgjl0ia",
    .listed "r70ik8052a0hmf0"⟩,
  ⟨["oldpersian", "xpeo"],
    .listed "hgjq0i34d",
    .listed ""⟩,
  ⟨["oldsogdian", "sogo"],
    .listed "hgvg0i7",
    .listed ""⟩,
  ⟨["oldsoutharabian", "sarb"],
    .listed "hgqm0hf",
    .listed ""⟩,
  ⟨["oldturkic", "orkh"],
    .listed "hgsg0k8",
    .listed "igla0tt50"⟩,
  ⟨["olduyghur", "ougr"],
    .listed "hgvn0h9",
    .listed "mk00hgkr10"⟩,
  ⟨["oriya", "orya"],
    .listed "rg1217212h51611142821227241142h1",
    .listed "pl11h11hjn40h70"⟩,
  ⟨["osage", "osge"],
    .listed "hgkr0i34i3",
    .listed "jg102060kc0"⟩,
  ⟨["osmanya", "osma"],
    .listed "hgko0hd29",
    .listed ""⟩,
  ⟨["pahawhhmong", "hmng"],
    .listed "hmrg0k5a9161h45h2",
    .listed ""⟩,
  ⟨["palmyrene", "palm"],
    .listed "hgom0hf",
    .listed ""⟩,
  ⟨["paucinhau", "pauc"],
    .listed "hhqs0j8",
    .listed ""⟩,
  ⟨["phagspa", "phag"],
    .listed "qok0j7",
    .listed "hog2110oi90vt20"⟩,
  ⟨["phoenician", "phnx"],
    .listed "hgpg0hb30",
    .listed ""⟩,
  ⟨["psalterpahlavi", "phlp"],
    .listed "hgro0h173c6",
    .listed "mk00"⟩,
  ⟨["rejang", "rjng"],
    .listed "qpj0i3b0",
    .listed ""⟩,
  ⟨["runic", "runr"],
    .listed "hmq0ka3a",
    .listed "hmub2"⟩,
  ⟨["samaritan", "samr"],
    .listed "og0id2e",
    .listed "iuj10"⟩,
  ⟨["saurashtra", "saur"],
    .listed "qoo0k58b",
    .listed ""⟩,
  ⟨["sharada", "shrd"],
    .listed "hhho0lf",
    .listed "pl10hjo501021209020ork2520"⟩,
  ⟨["shavian", "shaw"],
    .listed "hgkl0if",
    .listed "r70"⟩,
  ⟨["siddham", "sidd"],
    .listed "hhlo0j52i5",
    .listed ""⟩,
  ⟨["signwriting", "sgnw"],
    .listed "htog0iobf41e",
    .listed ""⟩,
  ⟨["sinhala", "sinh"],
    .listed "to121h13h7181026304510176922hgjuch3",
    .listed "pm41hjoc0"⟩,
  ⟨["sogdian", "sogd"],
    .listed "hgvj0i9",
    .listed "mk00"⟩,
  ⟨["sorasompeng", "sora"],
    .listed "hhgt0h879",
    .listed ""⟩,
  ⟨["soyombo", "soyo"],
    .listed "hhql0l2",
    .listed ""⟩,
  ⟨["sundanese", "sund"],
    .listed "hro0jfhg07",
    .listed ""⟩,
  ⟨["sunuwar", "sunu"],
    .listed "hhrs0i1e9",
    .listed "jg01109020hc030"⟩,
  ⟨["sylotinagri", "sylo"],
    .listed "qog0ic",
    .listed "pm41o09"⟩,
  ⟨["syriac", "syrc"],
    .listed "ng0d1jb22hh0a",
    .listed "jg312110h827111ita0e120i00aaha0hno7010"⟩,
  ⟨["tagalog", "tglg"],
    .listed "hng0h590",
    .listed "hnj51"⟩,
  ⟨["tagbanwa", "tagb"],
    .listed "hnm0c1211",
    .listed "hnj51"⟩,
  ⟨["taile", "tale"],
    .listed "hpl0hd24",
    .listed "jg015130tj39"⟩,
  ⟨["taitham", "lana"],
    .listed "hqi0je1hc2a696d",
    .listed ""⟩,
  ⟨["taiviet", "tavt"],
    .listed "qqo0k2h84",
    .listed ""⟩,
  ⟨["takri", "takr"],
    .listed "hhmo0j969",
    .listed "pm41pusa9"⟩,
  ⟨["tamil", "taml"],
    .listed "ro2115321331101131323b4432132060eh4hhjs5j1d0",
    .listed "pl11h11hjn40osh80mqgd010j71"⟩,
  ⟨["tangsa", "tnsa"],
    .listed "hmqn0ke19",
    .listed ""⟩,
  ⟨["tangut", "tang"],
    .listed "hmvu00hfhnv78ivfig08",
    .listed "ivv0fhuf0"⟩,
  ⟨["telugu", "telu"],
    .listed "sg0c121h61f281213711220232978",
    .listed "pl11h11hjmf11010h70"⟩,
  ⟨["thaana", "thaa"],
    .listed "no0j1",
    .listed "mgc0e120k09vno80a0"⟩,
  ⟨["thai"],
    .listed "ug1j95hb",
    .listed "irc0ha0ib0id0"⟩,
  ⟨["tibetan", "tibt"],
    .listed "vg0k71i34i61i31e1641",
    .listed "jgg83"⟩,
  ⟨["tifinagh", "tfng"],
    .listed "itj0j771e0",
    .listed "jg201013h90"⟩,
  ⟨["tirhuta", "tirh"],
    .listed "hhko0k789",
    .listed "pl11h11hjmf0c0f0orjd9"⟩,
  ⟨["todhri", "todr"],
    .listed "hgls0j3",
    .listed "jg1020209010ka0"⟩,
  ⟨["toto"],
    .listed "huip0he",
    .listed "irc0"⟩,
  ⟨["tulutigalari", "tutg"],
    .listed "hhjo0910201i519102013191181",
    .listed "su69hgg2010orjb5rb0"⟩,
  ⟨["ugaritic", "ugar"],
    .listed "hgjo0hd10",
    .listed ""⟩,
  ⟨["vai", "vaii"],
    .listed "qlg0hib",
    .listed ""⟩,
  ⟨["vithkuqi", "vith"],
    .listed "hgln0a1e16111a1e1611",
    .listed ""⟩,
  ⟨["wancho", "wcho"],
    .listed "huis0j950",
    .listed ""⟩,
  ⟨["warangciti", "wara"],
    .listed "hhoq0l2c0",
    .listed ""⟩,
  ⟨["yezidi", "yezi"],
    .listed "hguo0i91221",
    .listed "mgc0e030k09"⟩,
  ⟨["yi", "yiii"],
    .listed "qgg0koc3j6",
    .listed "jgg115927tf0sum54"⟩,
  ⟨["zanabazarsquare", "zanb"],
    .listed "hhqg0k7",
    .listed ""⟩]

def common : Table := .listed
    "0k0ha5haie1e14h70hf0hs1i6542h3n40906010ind060e030i00pc0ig40o11kt90hp53hi20luf2k71sb110ksd0d07
     3151220jg5b2l61a3a1eh1i0jfi512251ha1h0i924ip9h6ah5jpfhg0in32hf1m8ig0ldhp2h4101h8f743lb130la1p
     3fi0i590j0jfhfl0if0l8q7hps0jflpg0i1m62q59v40q00hob0e1lht21t09h6i21h213p301hfha5haaa0id1k0616a
     4hg224ic38l0cj3icu4harpq43vlcv96hr3pcn3jcv5ai62jd3h0817hd4jct5h3ch3cl69h8o7l41k6112021231b101
     61k01327161hb131410361hl32hi32j1hkn1k3kcjcis2ib4m3ce2e1e1i4aqdj8h911dib4871e5pajt74h03c3n64le
     6b40fb4j7896i78hd2b41jehl3cd2c395j77e2a687p21m5sgkg70helf"

def inherited : Table := .listed
    "jg0mfhh51hs4aha0iu03hhlbheig121c16406031s6jfigc1s2i0vj93mb1stm5fh0djsf0u20hgla0rrs4id2h6ii02h
     1726he3sivl2uf"

def script? (name : String) : Option Table :=
  match name with
  | "common" | "zyyy" => some common
  | "inherited" | "zinh" | "qaai" => some inherited
  | _ => (scripts.find? (·.names.contains name)).map (·.own)

/-- The characters used with a script. Those used with certain scripts count no longer as common or
inherited. -/
def scriptExtensions? (name : String) : Option Table :=
  match name with
  | "common" | "zyyy" | "inherited" | "zinh" | "qaai" =>
    (script? name).map fun t => scripts.foldl (fun t s => t.without s.further) t
  | _ => (scripts.find? (·.names.contains name)).map fun s => s.own ∪ s.further

end DocSelect.Regex.Property
