import DocSelect.Regex.Property.Table

/-!
# General categories

Every code point is of exactly one general category. Surrogates are no characters and are left out.
-/
namespace DocSelect.Regex.Property

def uppercaseLetter : Table := .listed
    "k1h9m5h616i1010101010101010101010101010101010101010101010101010101020101010101010102010101010
     101010101010101010101010101010101010111010311011122311123111101011102011121011307020202010101
     010101010201010101010101010202012101010101010101010101010101010101010101010101010101010101071
     11201310101010hi10103080601210111h018i30223010101010101010101010105020112j2j00101010101010101
     010101010101010109010101010101010101010101010101010101010101010101010101110101010101020101010
     10101010101010101010101010101010101010101010101010101010101010101010101010101010101010102i5rk
     9i51050it2l5op306ia22hk0010101010101010101010101010101010101010101010101010101010101010101010
     101010101010101010101010101010101010101010101010101010101010101010101010101010109010101010101
     01010101010101010101010101010101010101010101010101010101010101010101010101010101010109785a787
     85b010101087k83c3c3c4b3hg6040322220346010101323a150jd0qncifj001220101013102082101010101010101
     01010101010101010101010101010101010101010101010101010101010101010101010101010101010801040npkd
     010101010101010101010101010101010101010101010h3010101010101010101010101010o701010101010103010
     1010101010101010101010101010101010101010101010101010101010a0101110101010401020103010101010101
     01010101414101010101010101310113050101010h80lnibh9ks5i7o8i3pca1e1611muaj2pdh5rjahfllo0hfmlq0h
     9hah9hah9ha01120212317hah9ha1132716hb113141036hbh9hah9hah9hah9hah9hah9heh8i1h8i1h8i1h8i1h8i10
     hhj5i1"

def lowercaseLetter : Table := .listed
    "m1h9ja0i9h71710101010101010101010101010101010101010101010101010101011101010101010101110101010
     101010101010101010101010101010101010102010122010203140203220201010201110203010212260202010101
     010101010111010101010101010112010301010101010101010101010101010101010101010101010101010101016
     202110401010101k41has10103032h20hbi21132101010101010101010101014102021j3if1010101010101010101
     010101010101010901010101010101010101010101010101010101010101010101010201010101010111010101010
     10101010101010101010101010101010101010101010101010101010101010101010101010101010101010j0i8rk7
     ia22iv85oo2810n5ibjfc1i1m60101010101010101010101010101010101010101010101010101010101010101010
     101010101010101010101010101010101010101010101010101010101010101010101010101010101810101010101
     01010101010101010101010101010101010101010101010101010101010101010101010101010101010101885a787
     85a7878d2787878411603211832187a211hh203130hb04040218340j50qqbif103110101040111550101010101010
     10101010101010101010101010101010101010101010101010101010101010101010101010101010101011701040c
     i51050nph3010101010101010101010101010101010101010101010h3010101010101010101010101010o70101010
     101012101010101010101010101010101010101010101010101010101010101010101710102010101010401020121
     0101010101010101010505010101010101010401020301010101010ha030jj5ia587kfkvk06c4ki9h9ksdi7o8i3pb
     a1e1611ng3j2ndh5rjahfllo0hfmlpah9ha61h1hah9ha310161ahah9hah9hah9hah9hah9hah9hah9hah9hahbhch81
     5hah815hah815hah815hah81510nj491h365pv7i1"

def titlecaseLetter : Table := .listed "hs502020i60htp578787c0f0if0"

def modifierLetter : Table := .listed
    "ir0h14be47010o5050hte0u60q41hgd140hf09030q00q70kt40nf0ij50mta0mb0im30ht05qejed0i2i4ir10d0h0cr
     tf1v10rf0ht50ib450m11ld2mvh60ku25hge0n20hc1n98l00h70m9231ht50h60o90mc0h51m7390lkg60id1nu051i9
     18lp30i00ltt03hvc2i81ii6ck0110kggc31611jgj1jds96jqd0klf0"

def otherLetter : Table := .listed
    "qa0f0hg0043t00jjbha43idhf19i311m210h81a220h001hdhdl8b0h8i0h5h5iah87a5h715h1i8jbj530h2079h0e47
     212h516103330h00d112e1a085412h516111111hf310h32h08121h516111430h20f1h70b7212h516111430he112f0
     h1015321331101131323bh60j47121h61f30ha22021he047121h6191430hf111f1h18121i820h005282h855h13h71
     81026jaif11c5jb110141h71019119024h73i00jf71i3hb4n3iah40h05433031724cc0n1hk8132610132i8132i013
     2610132e1j8132k2i5fn1imb2h01h95ka677h1dh2eh1ec12fj3i80k3i21j4742i1105k5ahej1hd24bib4h9j6h69j4
     r0ieh17j6hdd1aibhai3i92ahdn13151130kja3rv7j7h8h69616161616161616ii70j504l5801l9405ia1ldh1hfj0
     fig0hprfk0lih41kn6k3i78hgb4fa1k20j1k5q90m703612131h6hdj3ej1je53011bhbah6h9hc7ieid428a41i8h721
     7h4f15303j11031242010h813a70e525259616p1i2hdirq3ch64j0ihg4hmd2m9k30191c141011111mbi1hmah2jf2j
     5i8bn441o6m991ic2he35252522i3b1h91h2111e2di2naho5hc3j0ifhfdh3176i5ahd2i347o0kdm2i78j3lcj3chj6
     9h5a7p85201ib11302h6ah69hek1h211ah5ah9k6j761k00f3121hciahc3hci371hbhbj5ah5ah2dh1mek8r7i3i6310
     hj0i961h02jbhca08h5iah1ieh4hbh6cj4j9120dici0h8hai3hd0208i230cife3h5010i3h11h8h31jf610131e197i
     ei67212h516111430h20c4he910201i510h9010icj4h23h42heifh4110r8iei93i4ifh40jbiad0k7hai56r9ibt372
     027111h7f010le72i6h0010hc0ai770h50bidh30h2k8s7i0hf81i4h10j1hdn06111i5h50h95111hfe0hk7h2f01c1i
     1nc0kfjp9u6s3qkcm0fkifh15h9vpa5ik6hqr9hdmu2ij87heh1keh1hdh2ifj3h45h2hr3i7hp5ka50qfhnv78kt5i99
     iiv7hi2f0hd220e38hobpg4ma5c3879iin00hv5ici10hk1hdh2ibhu4hau5hd20huf613111e1s4ljb31ha111020191
     3101060401010121110201010101011102316131310191h052141h0hhk4qmtfi0hgj96td2hmo1ehtj0fimdpq2ihdl
     u2hjka5hglf"

def nonspacingMark : Table := .listed
    "jg0mfhh34hg9ic10111110k8aj0h4h00m56252113i30hehalbaja890h83181214ib2jb8iah71hfj7010474036a1hd
     0ja04380h41ha021j9041412230he130b1j90441140h41h6510ja020138071b1he0jd0c0j2030j7012521371b1hd0
     ja0206051h41hc1j914380h41hd0k807210la026c7m2028b6k91hb01010j7d14115a1i390m63151121h9142h03d02
     160f0irf2jr22hd1he1he1k0116802a90id210n51i20n62419062tb120ja0161010276920j0d1fj13j00141050i88
     c1i032112j80113012ja721p821c16406031s6jfit0c403brve2od0m0hfiia3mb1nlt4049i01l01hh003040h9150p
     71hah1d0i67h9aie2j002321i70k352121c080if0j3012215110ia180ue02040kvj00iu1fh0fjsd0u20p54mo62115
     3i8240q51ijd3k14hjd1kf3k6aj13nb0j6ei9021a2j132170jd2i4417je0c1j48a320lf220116020pd037h51j9130
     i5634k65d01010e1l572210h70l45104111ue36111hb1l572011ma0102510m50102314hg3811hg011040p032140i0
     9i8523809522iec11hp661510l2h5261111na530111610k813010hlb1b1j445010h70hku506eiss8b32ps04jb6kh8
     0jf3l10ksr81him1id2h6ii02h1726he3p42nrbj64j180e0h641ell061h0261114m40q06hn70jd3hvc3ve1iu06md6
     shnr5uf"

def spacingMark : Table := .listed
    "pg30j70228311j21ja26121a0ib0ja2k20ja28011j51ja0106121a0m61113212a0i92jd3jd1ja014211191hc0e1ja
     25212a0ia1kb267h21hka1jf0qb1406021h91a226h512520a2mn80he0o107711hla3224115u01ja010901185p10j0
     0501411jd0he04120jc0221031j0781qb0h50hjj61nnv3120l81j2foe1if0j014122me121h80id010md02150ud111
     1110mkh3010nf0id241n30h81jb0j0291d0ld23110qa2hf1ja113212290a1l427020131110m528130ma2601320ud2
     6320n128110md01160m701140hg5290v7511402010oe28340l40hd1je0hp70e0ma07020t544110hle1c0j018110kh
     u82ui4j6m81mhn3165"

def enclosingMark : Table := .listed "ko81hmj40mhe312olob2"

def decimalNumber : Table := .listed
    "j09mi69o69s69hpc9n69n69n69n69n69n69n69n69n69m09n69k69hh69k69nk69i69hic9o09q6969r69l69o6969ops
     69iq69i69s69h69l69hp69ljh69lo69oo6969jhc9o09jc9p09hh69hl69n69hn69m696h3kc9hq69m69ip69l69v69k6
     9hq69kht69pi69l69o69ih69lvn69qt4j1pk09hq69hv69v79jl59hip69"

def letterNumber : Table := .listed "hmue2qmfi223une0h98e2nmqb9lql0j4hsc080o64igiame"

def otherNumber : Table := .listed
    "r215022pj55hn85n82o56t96h18hr19kj5h3kn39hu00mp503569s6fi90it6jbkeh5in6hdlm90kp43oa9he71ei09i7
     enln05lot1ick13h11hl5hai43lj47h96i78kb4h65q012f2idk08j41he2kb4m87h87i96hka5hm0hepe9ia3n06o6h3
     hnbh3lk51hqe8jm7h2jl3h4kro66jheh6mki9h3ch3mch8hlke8jq1ja1213kcic1ejs2c"

def connectorPunctuation : Table := .listed "lf0hvtf1h30ttte1h82uf0"

def dashPunctuation : Table := .listed
    "id0llc0j30uk10kg50og95ug1020hf140hc0hre0h30mf0stp01i50a0q90um00hje0"

def openPunctuation : Table := .listed
    "i80j20hf0ure010nle0pne030i60j70f0ina010he0kje0101010101010l00i0010101010hp4010101010101010101
     010k0010i10ki50101010h90h20101010hqc0101010103010101020sti10t70hd01010101010101030h101010qa0j
     20hf03020"

def closePunctuation : Table := .listed
    "i90j30hf0urd010nle0pq90j70f0ina010he0kje0101010101010l00i0010101010hp4010101010101010101010k0
     010i10ki50101010ic0101010hqc0101010103010101021sthe0t90hd01010101010101030h101010qa0j30hf0202
     0"

def initialPunctuation : Table := .listed "qb0hvmc02120h90ts80104020f030"

def finalPunctuation : Table := .listed "rb0hvld030hc0ts80104020f030"

def otherPunctuation : Table := .listed
    "i1212201011a131hb0k4050e170ire080ht25i90j602020ic1h4111d012ka3m60ibdu92j6ehf0hg51a0oc0n80n90h
     o60c0hmf0la0a1q8e10n00ka441mf5qb0im48jg50nc2k71pd212i5513hj91t81o0615q01a6hc2nc3jb4je1k07b0jk
     21878823223a1019spa311n00of1422028111021a41923101c22hqc2j90rd0nkg21hgd2m30a0n35hnc3l61i8210j1
     1if0m1ch01nc3ne1h01v90lii4620h60h41233213726011p5212201011a131hb0i4021hpa2ipc0j00hpe0iu70s70h
     f0hh08i60n06k26l93jr84ic3rd6md113ne3j01kf340d012l85mb0hia111n24a110m80vah6m92hcckc0o22vc0hg82
     pb0lc7l3214ld9t70lf4ia1io51kacqf0kn04rnc1jqnb1o50k1480ii82hi73hk70ksrc0htu74rn30jle1"

def mathSymbol : Table := .listed
    "ib0h02jd010id040i50hf0ive0igf2hqjb0d0i72d2ob0i7460k445140202070hf12010hfhgbi01la0heh8i85ht509
     0j67mf0hl042heafhg0o2h6je4hf2hg1j0h425svtc0jj8012q40h02jd010o3063tq11spj10h90hf0h90hf0h90hf0h
     90hf0h90hnic1"

def currencySymbol : Table := .listed
    "i40nd3ku90nb0hv21hv2170v50hg70ik50ppb0os4i0onn70lls30mc0pa0tb131hvv63sjhe0pr00"

def modifierSymbol : Table := .listed
    "le010k70604030ig93cd56101h0n50e1lg20hnj4012b2d2d2d1hgpc1nmm3h691m71jt00e1lgk6h0jnb010q20vkh74"

def otherSymbol : Table := .listed
    "q60204010jt10hga1nf1se0a0h31v70ig30hn50o2510o40sf0i90ho72f01225h401010o57151153s51iv09it30it2
     0pdi1hm1998lo311311a0116510101040b1e01110ja194231111161he21101hehgc74h3262l01hdh9i76k7h6al1kd
     h6r6181j58me1v7icibk0vfig0ifh516i62hf1m8u55hm51ieh91l8ct5haf40d1c0h5161hl0149i0i590h0hebhd80f
     hfai6fhjfhps0jflmp0j6jm13a110ijd2lis6fnf0id2hu403041d1hj98j9h0221c30ificmna1ikf0sn60op574h0kr
     ka350lhl60vm3ufh0hr3pcn3jcv5ai62jb52h617hd4jch5k130ral6kq9hvfj73j271d11ms80rlc0o10it1ib4m3ce2
     e1e1i4h7q0j8hcdib4871e5pava5it74h03c3n64le6b40fb4j7896i78hd2b41jehl3cd2c395j77e2a687p21lb"

def spaceSeparator : Table := .listed "i00nf0hltf0pnfai40if0vq00"

def lineSeparator : Table := .listed "igi80"

def paragraphSeparator : Table := .listed "igi90"

def control : Table := .listed "0hflfi0"

def format : Table := .listed
    "qd0ll25h60s00j10ho01l00vib0nvc4ha4j1419tuof0v92hgs10f0ijm2foom03hksf7siuo60helf"

def privateUse : Table := .listed "ugg0hovfugng0vvvd2vvvd"

def unassigned : Table := .listed
    "jn81637010h40hod0i61j2130j77hb36ahge0jc1m5djb1j11f0hc110b4hf024ud08121h60701241912147132051h9
     1306321h607020202110532132164016h19309030h60702051a030311e41c670308121h60702051912136332051h2
     9206230422010222232c3523041151dh54d030h70h0190304620311141a6h6030h70a051903046252041a03bd030j
     303063h01ha030h22h8090117213601085a13bja3hdi4201050h8010h71501070a14hfk80i43i70i40f0di4s60141
     1hn9041701041i9041i1041701041f0j9041k31i02ha5l6161ipd2l96h68h88h4bd0302ble1a5a5ha5l96ib4k69hf
     0c3c312ia15aic3ha5b2je1k10hd1b5a5e1hfj0kd0q67jc2f2je4ib1b7ib4ih6161i616180101010hf1j50f0e160h
     313090m50c1hb0d2i1ei1eoc3ipah5bh4nh41i00hld4id01411j862dh887070707070707070nei1ha0l9bt6h9l00l
     61m74ib0le0l68j00nimd2j78hlch3r87se120108h4jb2a5j87k67c5n4ahe2ke0b3i10j78e1a1m7h7hc9616168707
     0jc3ne1a5irq4bh73j13iime1mai57b54ha050102020ndfhrd1j661hfia5j30h304350o7110re261616132707951c
     0ha0h3020f1ei1nb433id2l80d21ieieo1hd2j1ehc3i48he4ib4he0i53ei9pe1a5i43i43i87j4ac0f07020b0f0702
     2j4bhj78h698h760ia09k46110ic02211h70k879ifh3024i12hb41jfj83h41j20248030hd133a696k0hfi73c8j62h
     d1hb4ha64b7kfk9j6j3cj36ie7a5i62hd72sfhf0ia0312f3j6ic7iah5hai5hch3h78ke3i48k4911h96a5j50h27i78
     m00h4ah20ifjd701040f0b5jb4a5408121h60702050a12131151471725aa01110i60a0111040a0272hclc05hdk87a
     q5j61i6i1k5aa5dh2ja5a5h4hbhb1f3h7r8jcm3l3b81118020he021c8ak581ie1bhak87l3ck96ar5i2da590id0e9h
     d2i01h60ek87020ic2102097a56020i502066ahj5h96h10i92hdl41ej2cjpbm5mf05as4qkbm3ckl69vpb4ik7hqr8j
     ams5ij96hf0a3l10a5he169k69a070h54h3hqfjas5lbm4kb3j96h1jf5a2dhnv87kt6i8aiiu6407020hi3e1hc311d4
     7hocpg3mb4d296a18vlbva5hr4kbie1h78n4jbv69i71s2h4k6n9h4bh4bl78h9o6l50k7021112140c01070k1041807
     0hc040501270hl41hi41iree50fkkfhf56t470h11702054jei01mfid2e1a32hjfhfh0ja41hsfiat5ib31htf704020
     f0s51h0i8kc3a32jh0k4kbjds140hb0201110a040101513101010302011101010101020114070404010a0h143050h
     1j32hgdic3m4bf1f0f0i59qej7hdcic3962d6p9jt83h12d2n73lf5c31ec3j87a5i87he1c32jdhl4be1d2a4j86f1b5
     96p30m6kg5qmu0hfhgja5te1hmo2dhtj1eimepq1ihelu1hjkb4hgm0qtsl01hdm0nfv0vugfvvve1vvve1"

def casedLetter : Table := uppercaseLetter ∪ lowercaseLetter ∪ titlecaseLetter

def letter : Table := casedLetter ∪ modifierLetter ∪ otherLetter

def mark : Table := nonspacingMark ∪ spacingMark ∪ enclosingMark

def number : Table := decimalNumber ∪ letterNumber ∪ otherNumber

def punctuation : Table :=
  connectorPunctuation ∪ dashPunctuation ∪ openPunctuation ∪ closePunctuation ∪
    initialPunctuation ∪ finalPunctuation ∪ otherPunctuation

def symbol : Table := mathSymbol ∪ currencySymbol ∪ modifierSymbol ∪ otherSymbol

def separator : Table := spaceSeparator ∪ lineSeparator ∪ paragraphSeparator

def other : Table := control ∪ format ∪ privateUse ∪ unassigned

def categories : List (List String × Table) := [
    (["lu", "uppercaseletter"], uppercaseLetter),
    (["ll", "lowercaseletter"], lowercaseLetter),
    (["lt", "titlecaseletter"], titlecaseLetter),
    (["lm", "modifierletter"], modifierLetter),
    (["lo", "otherletter"], otherLetter),
    (["mn", "nonspacingmark"], nonspacingMark),
    (["mc", "spacingmark"], spacingMark),
    (["me", "enclosingmark"], enclosingMark),
    (["nd", "decimalnumber", "digit"], decimalNumber),
    (["nl", "letternumber"], letterNumber),
    (["no", "othernumber"], otherNumber),
    (["pc", "connectorpunctuation"], connectorPunctuation),
    (["pd", "dashpunctuation"], dashPunctuation),
    (["ps", "openpunctuation"], openPunctuation),
    (["pe", "closepunctuation"], closePunctuation),
    (["pi", "initialpunctuation"], initialPunctuation),
    (["pf", "finalpunctuation"], finalPunctuation),
    (["po", "otherpunctuation"], otherPunctuation),
    (["sm", "mathsymbol"], mathSymbol),
    (["sc", "currencysymbol"], currencySymbol),
    (["sk", "modifiersymbol"], modifierSymbol),
    (["so", "othersymbol"], otherSymbol),
    (["zs", "spaceseparator"], spaceSeparator),
    (["zl", "lineseparator"], lineSeparator),
    (["zp", "paragraphseparator"], paragraphSeparator),
    (["cc", "control", "cntrl"], control),
    (["cf", "format"], format),
    (["co", "privateuse"], privateUse),
    (["cn", "unassigned"], unassigned),
    (["lc", "casedletter"], casedLetter),
    (["l", "letter"], letter),
    (["m", "mark", "combiningmark"], mark),
    (["n", "number"], number),
    (["p", "punctuation", "punct"], punctuation),
    (["s", "symbol"], symbol),
    (["z", "separator"], separator),
    (["c", "other"], other)]

end DocSelect.Regex.Property
