import DocSelect.Regex.Property.Category

/-!
# Properties that hold or do not

Those given by a list of their characters come first. The rest follow from the general categories,
lists of what is to be added to them, and other properties.
-/
namespace DocSelect.Regex.Property

def asciiHexDigit : Table := .listed "j0975ha5"

def bidiControl : Table := .listed "mhc0hpv11ha4j73"

def bidiMirrored : Table := .listed
    "i81h2010hc010hd010id0f0une3nld1ppc1a1j61e1r10s033530313313101048501h1539110171hf2350912h25194
     214h72f83h4171kjddka023111253523dhp3h5251d807530441124401221a521ch213201020135162h81b14311214
     ia271i750103452403410hg00ig333111e129ib7hqb927sujd551q21h2010hc010hd0101111tnn70j90j90j90j90"

def dash : Table := .listed
    "id0llc0j30uk10kg50og95jd0i70f0ho60sg4020hf140hc0hre0h30mf0stp01i50a0q90um00hje0"

def deprecated : Table := .listed "hk90li90pg3010oi91os55ir91ttst60"

def diacritic : Table := .listed
    "le010k70604021hv7pe1755h114091vd4t10j7ic10111110o3741o614132k3halbajaai21ne7i99h0hbjd0h0033hc
     0ka0h00me0h00me0h00if2jc0h0070n70me0h00me0h00md1h00nc0mf0c510mb0d4kb1hb0101041k2211je0n0011i8
     144h9610a1is12jr41he0p4a90hlb2hi40h4720j0e2am80f0i68j61ja0b1k21k05l2h8406022j2jej0i35bi5ahrd0
     12b2d2d2d1sv02hjd0hva5m93lf0nln20c110hc1l21ei1m62md1c0i50p70hbh1j93i40lf0c0i40p52k13j30m4492o
     01kvj00jg1fhge010if0id1k30ivc0kpf51i918ind240q51ijb5i60ha4hof2k6aj13s00i90k81n81je0kc092m81r2
     1l01h00h8634l9211d1lf030nb1vb1ne0n61n30hgd1hg2140pc0l30h20l10hq50hg2011l10hq91h70hkuceist90ps
     04jb6ij41ii2h0l01jvve31611hvg1id2h6ii02358726he3uo2jds26hn70jd3ive1iu06md212"

def emoji : Table := .listed
    "i306059mf040hvod0c0t80h60la5f1hmf1c0q60h9a42s70u71a090ja314902021204020112030318250105bb12011
     10h2021h25101131502141b15120511011h4155132040202510201010603060a1f02040104210b1j0290e0e0hn41h
     sf2h31j3040kta0c0il9010hrtma0sa0q01c1e029kbh911h70h4028h51qei12mf21122l2221hg61jeb51h77127c02
     32041d120819052c28220104060306l5j0k557224930113029u3b40hhbie191r8n0c395j77e2a68"

def emojiComponent : Table := .listed "i306059hvt30t50ttib0vjt6h9hvb4lr03sgmmclf"

def emojiModifier : Table := .listed "hvjvb4"

def emojiModifierBase : Table := .listed
    "imhd0tb0h03hssn70jc22022n512ah5h23042127010h80s9140h5041qe234l30h0290b0ijf02087609922j80jd111
     10h121cu52ia8"

def emojiPresentation : Table := .listed
    "ijha1sd33020ig91h51j2bib0h30d081h11518050h50711040207041hc0i30104210jd2h80e0jlb1j3040hskqe0sa
     0re029kbh910h80h402412h51qei0c81k51h5cia44ch0303k6101ra2jed31h7h20ha1d0l6l4j0k560322243b178u3
     b40hhbie191r8n0c395j77e2a68"

def extendedPictographic : Table := .listed
    "q9040hvod0c0t80h60la5f1hmf1c0lf0k60h9a42s70u71a090ja3151b1n1an52a1010603060a1f02040104210b4id
     290e0e0hn41hsf2h31j3040kta0c0il9010hrtm6vfd2hf0jc5c1e029h2j8hbea0h4028139hr15hjd8hg9j0nfn4bl5
     iac3j87a5i87hel1cie191hr8hg0jvd"

def extender : Table := .listed
    "r70ih81jme0hr90in60o90l90iv00nf0pk30j80im30hoe0k40hjo90ib4m71ld2mvh60lv60js20h60o90mc0h51lknb
     0oh01lsb0hb040ks70hi50n41hv22ksf0lgq91kpc110nhl81kr10jl42"

def graphemeLink : Table := .listed
    "pkd0nf0nf0nf0nf0nf0nf0nf0md1h00nc0mf0nf0s90r41mt91he0pd0iod0u30m51k61hhob0nqo60i50p70oe0mc0hj
     50v60lul10mg60i90e0j90n91ob0n40r40m20o02n10nf0vc0nf0n60n40hgd0hg31q10l30h20l10hq50hg41l10hq91
     khuc0"

def hexDigit : Table := .listed "j0975ha5vuq9975ha5"

def hyphen : Table := .listed "id0nf0ktc0hinb0og91ug50iu30stm70q90l70"

def idsBinaryOperator : Table := .listed "ivv0129hv10"

def idsTrinaryOperator : Table := .listed "ivv21"

def idsUnaryOperator : Table := .listed "ivve1"

def idCompatMathContinue : Table := .listed
    "r2150hvr603a1ehn3040h60hrkq20h90hf0h90hf0h90hf0h90hf0h90"

def idCompatMathStart : Table := .listed "iig2040h60hrkq20h90hf0h90hf0h90hf0h90hf0h90"

def ideographic : Table := .listed
    "jgg61h98e2js5hprfk0lhvflpg0hmd2m9nlga0hbhnv78kt5i99ikm7hobktg4qmtfi0hgj96td2hmo1ehtj0fimdpq2i
     hdlu2hjka5hglf"

def joinControl : Table := .listed "iggc1"

def logicalOrderException : Table := .listed "uk04nb4qv0220pgva12011"

def modifierCombiningMark : Table := .listed "ml4120o306031hu111230hf0"

def noncharacterCodePoint : Table := .listed
    "vtt0hfige1vvve1vvve1vvve1vvve1vvve1vvve1vvve1vvve1vvve1vvve1vvve1vvve1vvve1vvve1vvve1vvve1"

def otherAlphabetic : Table := .listed
    "jk50hdcik0d10111110k8aj0c16h00m56432140i30hefm6am51381213ma0jcb366h3j612e1152a1hd2ja62121a0a1
     hd2ja4412140he130b2ja71211h51h6242ja6212191a1he0jb43212a0i84j96121281b1hd2ja6121281b1f0c3ja61
     212a0a1hd2kb51017h21jd026h20m302511h00q3h29a1i3meb1023h7342122633db10a3mn41he1he1he1k2h2rc1i2
     0n6b48te4j992h3ka1b2j14j0ejc2he821j9aj2h2hpci1ms1j3ov6hfnon47i21hm2080h74l81j2f10j90i64hcbid3
     j0bi50k3dc081id2j20122150ic450ud7kvj30ol74mo621153jh43k10hk11kf0hg32j5did1b2id890jd2i4bh21j92
     j0ce1lc8206020pd9h73ja62121a0a1l4810201311m7c12mah1ud626hd1l2e10maam7dhg1cv7511213010oe62540h
     c9ia413h2aiedhp7716l3h51dna53011121030k241113hlc39110j0632khtdh0ui001j673ld1ksqc0ijm161h02611
     14m40or70nu8h96h96h9"

def otherDefaultIgnorableCodePoint : Table := .listed
    "jkf0ugf1ml31oqf0hgve0sujb0kf8tggg701hdm0nfv0ugf"

def otherGraphemeExtend : Table := .listed
    "pre0h80hm60h80m60h80u8010411191m70h80n70f0pj50he0kg00501051m50k71kh80hgi11npi30mc0lltd1hii00n
     40hg80e090m0090201250u00c0v10hg60in90c0mg30lgqe1mhn3165siuqdlf"

def otherIdContinue : Table := .listed "r70isf0vu18mm80mj11hgud0sum90"

def otherIdStart : Table := .listed "hoo51op10h50vmc1"

def otherLowercase : Table := .listed
    "qa0f0hv5871he4m00j40to10sifjed0i2i4ir10d0h0ct3fjl0h9np21nqhe1t20o1231jm2390lsh60221i918ton5jd"

def otherMath : Table := .listed
    "le0jn1220ha121hsi00hb2b0i03h81e1k1c403144h204029103460312112153354kb4231111101421414h12110161
     061hi23q8110h80h10hrd1c854512134e01025h81j9010hd391hl61hf9hp3h5jf3i01tkm301040t3010tks1l41k61
     12021231b10161k01327161hb131410361hl32h81h81he1h81he1h81he1h81he1h8172j1hmg031ha1110201913101
     060401010121110201010101011102316131310191h052141h0"

def otherUppercase : Table := .listed "ihm0fjk6h9hssm0h96h96h9"

def patternSyntax : Table := .listed
    "i1ea6ha310ha3i2610111011404030h70hf0hvh8h78e2h219hj1isfq0in5hekmbig0nfho124h8f0stgd1hg51"

def patternWhiteSpace : Table := .listed "94h20m40hvo81h81"

def prependedConcatenationMark : Table := .listed "mg05t70j10ho01l00hgnta0f0"

def quotationMark : Table := .listed "i2040o30f0hvlc7h91ug70hs93d2sui13rd040la1"

def radical : Table := .listed "iuo0h91l8ct5"

def regionalIndicator : Table := .listed "hvhu6h9"

def sentenceTerminal : Table := .listed
    "i10c0h00lk90p32r40ib2v60jd01031hi51mu41jh6041jg50s61pd1id050hja1hm23q21a121hd2rb1k11jq40h7192
     sqf2hj20d0h61hqd0nkvc0hge1u3030hne1l61lf0p81p32p01v90lii6021jb031q90c0h00k10qv41kvd4ic3rd1n53
     nf2o1160h01l8111mc0hia1n51hn515em91v92ig5010vb1l71hq41ir41ka1kri91o50k11b0ii91hi80kug60htu80"

def softDotted : Table := .listed
    "m91s40hh90he0j40h40hk00m2010hpg90j30d030o40pd0hq50t61rj20hqnq51j21j21j21j21j21j21j21j21j21j21
     j21j21oo60hj11ha0"

def terminalPunctuation : Table := .listed
    "i10a010b130jje080ig10j90k80e012r40iba10ub1j6517hf0hg51kv41qc045hj71jh57jg50nc2k71pd230i7321hj
     a1hm23q21a112hd2rb4je1jq40h7192sqf2hj20d040a01131hqc1nkvb1hgd2u34hne1l61lf0p72p32nf0h01v90lii
     6021j9213q90a010b130k1020kja0j00ko60s70hj61p85k45l93jr84ic3rd6n03nf2o1160h01l84mc0hia1n52c1hm
     633em91v92ig5010vb1l7141hpe2id0io51ka1lib4klv91o50k12a0ii91hi71kug60htu73"

def unifiedIdeograph : Table := .listed
    "jkg0hprfk0lhvflqge11011a0101122hglt6qmtfi0hgj96td2hmo1ehtj0fimdhhq2hjka5hglf"

def variationSelector : Table := .listed "hogb210ulv0ftgiv0uf"

def whiteSpace : Table := .listed "94h20m40ha0hltf0pnfahd150if0vq00"

/-! ## Properties that follow from others -/

def alphabetic : Table := letter ∪ letterNumber ∪ otherAlphabetic

def lowercase : Table := lowercaseLetter ∪ otherLowercase

def uppercase : Table := uppercaseLetter ∪ otherUppercase

def cased : Table := lowercase ∪ uppercase ∪ titlecaseLetter

/-- Marks and modifiers stand between letters without a case of their own, and so do these signs. -/
def caseIgnorable : Table :=
  nonspacingMark ∪ enclosingMark ∪ format ∪ modifierLetter ∪ modifierSymbol ∪
    .listed "i7060b0nc0isf0ht70p40hqi31a020ttub0je020r1060b0"

def math : Table := mathSymbol ∪ otherMath

def graphemeExtend : Table := nonspacingMark ∪ enclosingMark ∪ otherGraphemeExtend

def graphemeBase : Table :=
  everything.without
    (control ∪ format ∪ privateUse ∪ unassigned ∪ lineSeparator ∪ paragraphSeparator ∪
      graphemeExtend)

def idStart : Table :=
  (letter ∪ letterNumber ∪ otherIdStart).without (patternSyntax ∪ patternWhiteSpace)

def idContinue : Table :=
  (idStart ∪ nonspacingMark ∪ spacingMark ∪ decimalNumber ∪ connectorPunctuation ∪
    otherIdContinue).without (patternSyntax ∪ patternWhiteSpace)

/-- Without the characters that a compatible form would split up. -/
def xidStart : Table :=
  idStart.without (.listed "jna0qr80nf0ihu71srs15hp61n4010101010101010hhf1")

def xidContinue : Table :=
  idContinue.without (.listed "jna0iti01srs15hp61n4010101010101010")

def defaultIgnorableCodePoint : Table :=
  (otherDefaultIgnorableCodePoint ∪ format ∪ variationSelector).without
    (whiteSpace ∪ .listed "vvv92jkj4h0" ∪ prependedConcatenationMark)

/-- Styled capitals have no small form. -/
def changesWhenLowercased : Table :=
  (uppercase ∪ titlecaseLetter).without
    (.listed "jt22htid040322220346030312110a150hrirah9hah9hah9ha01120212317hah9ha1132716hb1131410
       36hbh9hah9hah9hah9hah9hah9heh8i1h8i1h8i1h8i1h8i10hpm5h96h96h9")

def changesWhenUppercased : Table :=
  (lowercase.without
    (.listed "qa0f0nd0l40hc1e030m20h25hb02010222040511021161110226410172h971he4p50o10hm30i70rn30s
       g3n8121f1j0tc110ht10d0h0cmd03130hb040402183ri702026m60npr71p21je8h5060h90i3010hc232
       jj5i2161dlsh60221i918sslfh9ha61h1hah9ha310161ahah9hah9hah9hah9hah9hah9hah9hah9hahbh
       ch815hah815hah815hah815hah81510nj491h365hg5jd")) ∪
      .listed "hs502020i60htp578787c0f0if0"

def changesWhenTitlecased : Table :=
  (changesWhenUppercased.without (.listed "hs502020i60utdia22uo878787c0f0if0")) ∪
    .listed "hs402020i60"

def changesWhenCasefolded : Table :=
  (changesWhenLowercased.without (.listed "hjq0l5")) ∪
    .listed "r50i90m90j50hs50nc0d131h9130hp10un05oo28ih11u478787a220a220ia220orn8kfkvk06c4"

def changesWhenCasemapped : Table :=
  changesWhenLowercased ∪ changesWhenUppercased ∪ changesWhenTitlecased

/-- What a word of running text is made of. -/
def word : Table := alphabetic ∪ mark ∪ decimalNumber ∪ connectorPunctuation ∪ joinControl

def binaries : List (List String × Table) := [
    (["asciihexdigit", "ahex"], asciiHexDigit),
    (["bidicontrol", "bidic"], bidiControl),
    (["bidimirrored", "bidim"], bidiMirrored),
    (["dash"], dash),
    (["deprecated", "dep"], deprecated),
    (["diacritic", "dia"], diacritic),
    (["emoji"], emoji),
    (["emojicomponent", "ecomp"], emojiComponent),
    (["emojimodifier", "emod"], emojiModifier),
    (["emojimodifierbase", "ebase"], emojiModifierBase),
    (["emojipresentation", "epres"], emojiPresentation),
    (["extendedpictographic", "extpict"], extendedPictographic),
    (["extender", "ext"], extender),
    (["graphemelink", "grlink"], graphemeLink),
    (["hexdigit", "hex"], hexDigit),
    (["hyphen"], hyphen),
    (["idsbinaryoperator", "idsb"], idsBinaryOperator),
    (["idstrinaryoperator", "idst"], idsTrinaryOperator),
    (["idsunaryoperator", "idsu"], idsUnaryOperator),
    (["idcompatmathcontinue"], idCompatMathContinue),
    (["idcompatmathstart"], idCompatMathStart),
    (["ideographic", "ideo"], ideographic),
    (["joincontrol", "joinc"], joinControl),
    (["logicalorderexception", "loe"], logicalOrderException),
    (["modifiercombiningmark", "mcm"], modifierCombiningMark),
    (["noncharactercodepoint", "nchar"], noncharacterCodePoint),
    (["otheralphabetic", "oalpha"], otherAlphabetic),
    (["otherdefaultignorablecodepoint", "odi"], otherDefaultIgnorableCodePoint),
    (["othergraphemeextend", "ogrext"], otherGraphemeExtend),
    (["otheridcontinue", "oidc"], otherIdContinue),
    (["otheridstart", "oids"], otherIdStart),
    (["otherlowercase", "olower"], otherLowercase),
    (["othermath", "omath"], otherMath),
    (["otheruppercase", "oupper"], otherUppercase),
    (["patternsyntax", "patsyn"], patternSyntax),
    (["patternwhitespace", "patws"], patternWhiteSpace),
    (["prependedconcatenationmark", "pcm"], prependedConcatenationMark),
    (["quotationmark", "qmark"], quotationMark),
    (["radical"], radical),
    (["regionalindicator", "ri"], regionalIndicator),
    (["sentenceterminal", "sterm"], sentenceTerminal),
    (["softdotted", "sd"], softDotted),
    (["terminalpunctuation", "term"], terminalPunctuation),
    (["unifiedideograph", "uideo"], unifiedIdeograph),
    (["variationselector", "vs"], variationSelector),
    (["whitespace", "wspace", "space"], whiteSpace),
    (["alphabetic", "alpha"], alphabetic),
    (["lowercase", "lower"], lowercase),
    (["uppercase", "upper"], uppercase),
    (["cased"], cased),
    (["caseignorable", "ci"], caseIgnorable),
    (["math"], math),
    (["graphemeextend", "grext"], graphemeExtend),
    (["graphemebase", "grbase"], graphemeBase),
    (["idstart", "ids"], idStart),
    (["idcontinue", "idc"], idContinue),
    (["xidstart", "xids"], xidStart),
    (["xidcontinue", "xidc"], xidContinue),
    (["defaultignorablecodepoint", "di"], defaultIgnorableCodePoint),
    (["changeswhenlowercased", "cwl"], changesWhenLowercased),
    (["changeswhenuppercased", "cwu"], changesWhenUppercased),
    (["changeswhentitlecased", "cwt"], changesWhenTitlecased),
    (["changeswhencasefolded", "cwcf"], changesWhenCasefolded),
    (["changeswhencasemapped", "cwcm"], changesWhenCasemapped)]

end DocSelect.Regex.Property
